import Mathlib.Data.Set.Finite.Basic
import Mathlib.Logic.Relation

/-! Relations without circles. -/

namespace ParamLens

open Relation

variable {α : Type} {r : α → α → Prop}

/-- Nothing comes back to itself along the relation. -/
def Acyclic (r : α → α → Prop) : Prop := ∀ a, ¬ TransGen r a a

theorem acyclic_of_rank {p : α → Prop} (rank : α → Nat) (left : ∀ a b, r a b → p a)
    (h : ∀ a b, r a b → p b → rank a < rank b) : Acyclic r := by
  have hchain {a b : α} (hab : TransGen r a b) (hb : p b) : rank a < rank b := by
    induction hab with
    | single hstep => exact h _ _ hstep hb
    | tail _ hstep ih => exact (ih (left _ _ hstep)).trans (h _ _ hstep hb)
  intro a hcircle
  obtain ⟨b, hstep, -⟩ := TransGen.head'_iff.mp hcircle
  exact Nat.lt_irrefl _ (hchain hcircle (left a b hstep))

theorem Acyclic.wellFounded (h : Acyclic r) {l : List α} (hmem : ∀ a b, r a b → a ∈ l) :
    WellFounded r := by
  let below (x y : {a // a ∈ l}) : Prop := TransGen r x.1 y.1
  have : Finite {a // a ∈ l} := (List.finite_toSet l).to_subtype
  have : IsTrans {a // a ∈ l} below := ⟨fun _ _ _ => TransGen.trans⟩
  have : Std.Irrefl below := ⟨fun x => h x.1⟩
  have hbelow : WellFounded below := Finite.wellFounded_of_trans_of_irrefl below
  have hacc : ∀ x : {a // a ∈ l}, Acc r x.1 := by
    intro x
    induction x using hbelow.induction with
    | _ x ih => exact ⟨x.1, fun b hb => ih ⟨b, hmem b x.1 hb⟩ (.single hb)⟩
  exact ⟨fun a => ⟨a, fun b hb => hacc ⟨b, hmem b a hb⟩⟩⟩

theorem not_transGen_of_acc {a b : α} (h : Acc r a) (hab : ReflTransGen r b a) :
    ¬ TransGen r b b := by
  have hb : Acc r b := by
    induction hab using ReflTransGen.head_induction_on with
    | refl => exact h
    | head hstep _ ih => exact ih.inv hstep
  have hchains := hb.transGen
  clear hab hb
  induction hchains with
  | intro b _ ih => exact fun hcircle => ih b hcircle hcircle

end ParamLens
