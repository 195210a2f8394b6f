import ClassFormat.Proofs.Class.Verdict
import ClassFormat.Report
import Mathlib.Algebra.Order.BigOperators.Group.List
import Mathlib.Algebra.Order.Group.Nat
import Mathlib.Algebra.Order.Monoid.Basic
import Mathlib.Algebra.Order.Monoid.Prod

namespace ClassFormat

namespace Stats

instance : Zero Stats := ⟨{}⟩

instance : Add Stats := ⟨add⟩

instance : SMul Nat Stats :=
  ⟨fun n stats => ⟨n * stats.checked, n * stats.mismatches, n * stats.failures⟩⟩

def toTriple (stats : Stats) : Nat × Nat × Nat := (stats.checked, stats.mismatches, stats.failures)

theorem toTriple_injective : Function.Injective toTriple := by
  intro a b h
  cases a
  cases b
  cases h
  rfl

instance : AddCommMonoid Stats :=
  toTriple_injective.addCommMonoid toTriple rfl (fun _ _ => rfl) fun _ _ => rfl

instance : PartialOrder Stats := PartialOrder.lift toTriple toTriple_injective

instance : IsOrderedAddMonoid Stats :=
  Function.Injective.isOrderedAddMonoid toTriple (fun _ _ => rfl) Iff.rfl

theorem le_iff {a b : Stats} : a ≤ b ↔
    a.checked ≤ b.checked ∧ a.mismatches ≤ b.mismatches ∧ a.failures ≤ b.failures := Iff.rfl

theorem nonneg (stats : Stats) : 0 ≤ stats := le_iff.2 ⟨Nat.zero_le _, Nat.zero_le _, Nat.zero_le _⟩

theorem isClean_eq_false_of_le {a b : Stats} (h : a ≤ b) (ha : a.isClean = false) :
    b.isClean = false := by
  obtain ⟨-, hmismatches, hfailures⟩ := le_iff.1 h
  rw [← Bool.not_eq_true, isClean, Bool.and_eq_true, beq_iff_eq, beq_iff_eq] at ha ⊢
  omega

theorem mk_add_mk (checked mismatches failures checked' mismatches' failures' : Nat) :
    (⟨checked, mismatches, failures⟩ + ⟨checked', mismatches', failures'⟩ : Stats) =
      ⟨checked + checked', mismatches + mismatches', failures + failures'⟩ := rfl

theorem isClean_add (a b : Stats) : (a + b).isClean = (a.isClean && b.isClean) := by
  rw [Bool.eq_iff_iff]
  have hmismatches : (a + b).mismatches = a.mismatches + b.mismatches := rfl
  have hfailures : (a + b).failures = a.failures + b.failures := rfl
  simp only [isClean, Bool.and_eq_true, beq_iff_eq]
  omega

def ofClass (item : String × Bytes) : Stats :=
  ⟨1, 0, if (RoundTrip.check item.2).isOk then 0 else 1⟩

def ofEnd (failure : Option (List String)) : Stats := ⟨0, 0, if failure.isSome then 1 else 0⟩

/-- What a source adds if all its classes are checked. -/
def ofDelivery (delivery : Delivery) : Stats :=
  (delivery.classes.map ofClass).sum + ofEnd delivery.failure

theorem sum_ofClass (items : List (String × Bytes)) : (items.map ofClass).sum =
    ⟨items.length, 0, items.countP fun item => !(RoundTrip.check item.2).isOk⟩ := by
  induction items with
  | nil => rfl
  | cons item items ih =>
    rw [List.map_cons, List.sum_cons, ih, ofClass, mk_add_mk, List.countP_cons, List.length_cons]
    cases (RoundTrip.check item.2).isOk <;> simp [Nat.add_comm]

theorem sum_ofDelivery (deliveries : List Delivery) : (deliveries.map ofDelivery).sum =
    { checked := (deliveries.flatMap (·.classes)).length
      mismatches := 0
      failures := (deliveries.flatMap (·.classes)).countP (fun item =>
        !(RoundTrip.check item.2).isOk) + deliveries.countP (·.failure.isSome) } := by
  induction deliveries with
  | nil => rfl
  | cons delivery deliveries ih =>
    simp only [List.map_cons, List.sum_cons, ih, ofDelivery, sum_ofClass, ofEnd, mk_add_mk,
      List.flatMap_cons, List.length_append, List.countP_append, List.countP_cons]
    congr 1
    omega

end Stats

/-- Counting a class comes to adding what it is worth. -/
theorem Progress.count_eq (item : String × Bytes) (stats : Stats) :
    (count item.1 (RoundTrip.check item.2) { stats with checked := stats.checked + 1 }).1 =
      stats + .ofClass item := by
  cases h : RoundTrip.check item.2 with
  | ok outcome =>
    cases outcome with
    | identical =>
      rw [Stats.ofClass, h]
      rfl
    -- checking never finds one
    | mismatch firstDifference => exact absurd h (RoundTrip.check_ne_mismatch _ firstDifference)
  | error failure =>
    rw [Stats.ofClass, h]
    rfl

namespace Report

theorem flatten_pieces {α : Type} {size : Nat} (hsize : 0 < size) {bound : Nat} {as : List α}
    (h : as.length ≤ bound) : (pieces size bound as).flatten = as := by
  induction bound generalizing as with
  | zero =>
    have hnil : as = [] := List.length_eq_zero_iff.1 (Nat.le_zero.1 h)
    rw [hnil]
    rfl
  | succ bound ih =>
    cases as with
    | nil => rfl
    | cons a as =>
      -- a piece takes at least one element, so the bound goes down with the rest
      have hrest : ((a :: as).drop size).length ≤ bound := by
        rw [List.length_drop]
        omega
      rw [pieces, List.flatten_cons, ih hrest, List.take_append_drop]

theorem flatten_shares {α : Type} (jobs : Nat) (sources : List α) :
    (shares jobs sources).flatten = sources := by
  unfold shares
  split
  · simp
  · rename_i hmany
    simp only [Bool.or_eq_true, decide_eq_true_eq, not_or, Nat.not_le] at hmany
    have hsize : 0 < (sources.length + jobs - 1) / jobs := Nat.div_pos (by omega) (by omega)
    exact flatten_pieces hsize (Nat.le_refl _)

end Report

end ClassFormat
