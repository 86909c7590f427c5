import Mathlib.Data.Set.Finite.Basic
import Mathlib.Order.WellFoundedSet

/-!
# Walks that end

A walk along a relation ends, if it can only come to finitely many places, exactly if it comes to
none from which it can come back.
-/

namespace Cycles

open Relation

variable {α : Type*} {r : α → α → Prop} {a : α}

/-- No place that is reached from `a` is reached again from itself. -/
def NoneFrom (r : α → α → Prop) (a : α) : Prop := ∀ b, ReflTransGen r a b → ¬TransGen r b b

/-- A place on a cycle is not accessible. -/
theorem not_transGen_of_acc (h : Acc (flip r) a) : ¬TransGen r a a := by
  induction h with
  | intro a _ ih =>
    intro hcycle
    obtain ⟨b, hab, hba⟩ := TransGen.head'_iff.mp hcycle
    exact ih b hab (TransGen.tail' hba hab)

/-- No cycle is reached from an accessible place. -/
theorem noneFrom_of_acc (h : Acc (flip r) a) : NoneFrom r a := by
  intro b hb
  induction hb using ReflTransGen.head_induction_on with
  | refl => exact not_transGen_of_acc h
  | head hstep _ ih => exact ih (h.inv hstep)

/-- Among finitely many places, there is no infinite walk without a cycle. -/
theorem acc_of_noneFrom (hfinite : {b | ReflTransGen r a b}.Finite) (h : NoneFrom r a) :
    Acc (flip r) a := by
  -- on the places that are reached, coming later is a strict order
  let later (b c : {b | ReflTransGen r a b}) : Prop := TransGen r c.1 b.1
  have : Finite {b | ReflTransGen r a b} := hfinite
  have : IsStrictOrder _ later :=
    { irrefl := fun b => h b.1 b.2
      trans := fun _ _ _ hbc hcd => hcd.trans hbc }
  have hwf : WellFounded later := Finite.wellFounded_of_trans_of_irrefl later
  have hacc (b : {b | ReflTransGen r a b}) : Acc (flip r) b.1 := by
    induction b using hwf.induction with
    | _ b ih => exact ⟨b.1, fun c hc => ih ⟨c, b.2.tail hc⟩ (.single hc)⟩
  exact hacc ⟨a, .refl⟩

/-- A walk ends exactly if it reaches no cycle. -/
theorem acc_iff_noneFrom (hfinite : {b | ReflTransGen r a b}.Finite) :
    Acc (flip r) a ↔ NoneFrom r a :=
  ⟨noneFrom_of_acc, acc_of_noneFrom hfinite⟩

end Cycles
