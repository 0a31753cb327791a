import Mathlib.Logic.Relation

/-!
# Chains of a partial function

`next a` is the element after `a`, if there is one.  A chain stops at an element that has no successor
but itself, and it enters a cycle when it comes back to an element that it left.
-/

namespace Chains

open Relation

variable {α : Type*} {next : α → Option α} {a b e e' : α}

def Reaches (next : α → Option α) : α → α → Prop := ReflTransGen fun a b => next a = some b

def Stops (next : α → Option α) (e : α) : Prop := ∀ b, next e = some b → b = e

/-- `e` is the end of the chain of `a`. -/
def EndsAt (next : α → Option α) (a e : α) : Prop := Reaches next a e ∧ Stops next e

/-- The chain of `a` enters a cycle of at least two elements. -/
def EntersCycle (next : α → Option α) (a : α) : Prop :=
  ∃ b c, Reaches next a b ∧ next b = some c ∧ c ≠ b ∧ Reaches next c b

theorem Stops.eq_of_reaches (hstop : Stops next e) (h : Reaches next e b) : b = e := by
  induction h with
  | refl => rfl
  | tail _ hnext ih =>
    subst ih
    exact hstop _ hnext

theorem reaches_total (hb : Reaches next a b) (he : Reaches next a e) :
    Reaches next b e ∨ Reaches next e b := by
  apply ReflTransGen.total_of_right_unique _ hb he
  intro x y z hy hz
  exact Option.some.inj (hy.symm.trans hz)

theorem EndsAt.unique (h : EndsAt next a e) (h' : EndsAt next a e') : e = e' := by
  rcases reaches_total h.1 h'.1 with hreach | hreach
  · exact (h.2.eq_of_reaches hreach).symm
  · exact h'.2.eq_of_reaches hreach

theorem reaches_back {c : α} (hnext : next b = some c) (hback : Reaches next c b)
    (h : Reaches next b e) : Reaches next e b := by
  induction h with
  | refl => exact .refl
  | @tail x y _ hy ih =>
    rcases ReflTransGen.cases_head ih with heq | ⟨z, hz, hzb⟩
    · subst heq
      rwa [Option.some.inj (hy.symm.trans hnext)]
    · rwa [Option.some.inj (hy.symm.trans hz)]

theorem EndsAt.not_entersCycle (h : EndsAt next a e) : ¬ EntersCycle next a := by
  rintro ⟨b, c, hb, hnext, hne, hback⟩
  have heb : Reaches next e b := by
    rcases reaches_total hb h.1 with hreach | hreach
    · exact reaches_back hnext hback hreach
    · exact hreach
  have heq : b = e := h.2.eq_of_reaches heb
  subst heq
  exact hne (h.2 c hnext)

end Chains
