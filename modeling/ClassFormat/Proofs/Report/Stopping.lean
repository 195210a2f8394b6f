import ClassFormat.Proofs.Report.Agreement

namespace ClassFormat

/-- Whether a class does not come back byte for byte. -/
def RoundTrip.isProblem (item : String × Bytes) : Bool :=
  match check item.2 with
  | .ok .identical => false
  | _ => true

theorem Stats.ofClass_eq (item : String × Bytes) :
    ofClass item = ⟨1, 0, if RoundTrip.isProblem item then 1 else 0⟩ := by
  unfold ofClass RoundTrip.isProblem
  cases h : RoundTrip.check item.2 with
  | error failure => rfl
  | ok outcome =>
    cases outcome with
    | identical => rfl
    | mismatch firstDifference => exact absurd h (RoundTrip.check_ne_mismatch _ firstDifference)

namespace Delivery

def hasBadClass (delivery : Delivery) : Bool := delivery.classes.any RoundTrip.isProblem

def hasProblem (delivery : Delivery) : Bool := delivery.hasBadClass || delivery.failure.isSome

/-- What is counted for a source: one for a bad class, and one for the error it ends in. -/
def problems (delivery : Delivery) : Nat :=
  (if delivery.hasBadClass then 1 else 0) + if delivery.failure.isSome then 1 else 0

theorem problems_eq {delivery : Delivery} (h : delivery.hasProblem = true) :
    delivery.problems = if delivery.hasBadClass && delivery.failure.isSome then 2 else 1 := by
  unfold hasProblem at h
  unfold problems
  revert h
  cases delivery.hasBadClass <;> cases delivery.failure.isSome <;> decide

end Delivery

namespace Report

/-- A class, or the error that a source ends in. -/
inductive Encounter where
  | classFile (item : String × Bytes)
  | sourceError (chain : List String)

namespace Encounter

def isClass : Encounter → Bool
  | .classFile _ => true
  | .sourceError _ => false

def isProblem : Encounter → Bool
  | .classFile item => RoundTrip.isProblem item
  | .sourceError _ => true

end Encounter

def encounters (delivery : Delivery) : List Encounter :=
  delivery.classes.map .classFile ++ (delivery.failure.map .sourceError).toList

/-- What comes before the first problem, and the problem itself. -/
def upToProblem : List Encounter → List Encounter
  | [] => []
  | first :: rest => if first.isProblem then [first] else first :: upToProblem rest

theorem any_encounters (delivery : Delivery) :
    (encounters delivery).any Encounter.isProblem = delivery.hasProblem := by
  rw [encounters, List.any_append, List.any_map, Delivery.hasProblem]
  cases delivery.failure <;> rfl

theorem upToProblem_append (before after : List Encounter) :
    upToProblem (before ++ after) = if before.any Encounter.isProblem
      then upToProblem before
      else before ++ upToProblem after := by
  induction before with
  | nil => rfl
  | cons first before ih =>
    rw [List.cons_append, upToProblem, upToProblem, List.any_cons, ih]
    cases first.isProblem with
    | true => rfl
    | false => cases before.any Encounter.isProblem <;> rfl

/-- How many classes are checked up to the first problem. -/
def classesUpToProblem (all : List Encounter) : Nat := (upToProblem all).countP Encounter.isClass

theorem classesUpToProblem_cons (item : String × Bytes) (rest : List Encounter) :
    classesUpToProblem (.classFile item :: rest) =
      1 + if RoundTrip.isProblem item then 0 else classesUpToProblem rest := by
  rw [classesUpToProblem, upToProblem, Encounter.isProblem]
  cases RoundTrip.isProblem item with
  | true => rfl
  | false => exact (List.countP_cons_of_pos rfl).trans (Nat.add_comm _ 1)

theorem classesUpToProblem_append (before after : List Encounter) :
    classesUpToProblem (before ++ after) = if before.any Encounter.isProblem
      then classesUpToProblem before
      else before.countP Encounter.isClass + classesUpToProblem after := by
  rw [classesUpToProblem, upToProblem_append]
  split
  · rfl
  · exact List.countP_append

theorem classesUpToProblem_of_none {all : List Encounter}
    (h : all.any Encounter.isProblem = false) :
    classesUpToProblem all = all.countP Encounter.isClass := by
  have happend := classesUpToProblem_append all []
  rw [List.append_nil, h] at happend
  exact happend

end Report

namespace Progress

open Report

variable {p : Progress}

theorem checkClass_of_running (h : p.stopped = false) (item : String × Bytes) :
    (p.checkClass true item).stats = p.stats + .ofClass item ∧
      (p.checkClass true item).stopped = !(p.stats + .ofClass item).isClean := by
  obtain ⟨stats, stopped, log⟩ := p
  cases h
  rw [← count_eq item stats]
  exact ⟨rfl, rfl⟩

theorem foldl_checkClass_of_stopped (h : p.stopped = true) (items : List (String × Bytes)) :
    items.foldl (checkClass true) p = p := by
  induction items with
  | nil => rfl
  | cons item items ih =>
    rw [List.foldl_cons, checkClass, if_pos h]
    exact ih

/-- Classes are checked up to the first that is a problem, and only that one is counted as one. -/
theorem foldl_checkClass (h : p.stopped = false) (hclean : p.stats.isClean = true)
    (items : List (String × Bytes)) :
    (items.foldl (checkClass true) p).stats = p.stats +
        ⟨classesUpToProblem (items.map .classFile), 0,
          if items.any RoundTrip.isProblem then 1 else 0⟩ ∧
      (items.foldl (checkClass true) p).stopped = items.any RoundTrip.isProblem := by
  -- the worker goes on clean and running until the first problem, and is stopped behind it
  induction items generalizing p with
  | nil => exact ⟨(add_zero p.stats).symm, h⟩
  | cons item items ih =>
    obtain ⟨hstats, hstopped⟩ := checkClass_of_running h item
    rw [Stats.isClean_add, hclean, Bool.true_and] at hstopped
    rw [Stats.ofClass_eq] at hstats hstopped
    rw [List.foldl_cons, List.any_cons, List.map_cons, classesUpToProblem_cons]
    cases hproblem : RoundTrip.isProblem item with
    | true =>
      rw [hproblem] at hstats hstopped
      rw [foldl_checkClass_of_stopped hstopped]
      exact ⟨hstats, hstopped⟩
    | false =>
      rw [hproblem] at hstats hstopped
      have hstill : (p.checkClass true item).stats.isClean = true := by
        rw [hstats, Stats.isClean_add, hclean]
        rfl
      obtain ⟨hrest, hend⟩ := ih hstopped hstill
      refine ⟨?_, hend⟩
      rw [hrest, hstats, add_assoc]
      congr 1
      exact congrArg (Stats.mk _ 0) (Nat.zero_add _)

/-- What a source adds up to its first problem; its error is counted in any case. -/
theorem checkSource_of_running (h : p.stopped = false) (hclean : p.stats.isClean = true)
    (delivery : Delivery) :
    (p.checkSource true delivery).stats = p.stats +
        ⟨classesUpToProblem (encounters delivery), 0, delivery.problems⟩ ∧
      (p.checkSource true delivery).stopped = delivery.hasProblem := by
  obtain ⟨hstats, hstopped⟩ := foldl_checkClass h hclean delivery.classes
  have hchecked : classesUpToProblem (encounters delivery) =
      classesUpToProblem (delivery.classes.map .classFile) := by
    have herror : classesUpToProblem (delivery.failure.map .sourceError).toList =
        classesUpToProblem [] := by
      cases delivery.failure <;> rfl
    rw [encounters, classesUpToProblem_append, herror, ← classesUpToProblem_append,
      List.append_nil]
  rw [checkSource, if_neg (by rw [h]; exact Bool.false_ne_true), hchecked, Delivery.hasProblem,
    Delivery.problems]
  cases delivery.failure with
  | none => exact ⟨hstats, hstopped.trans (Bool.or_false _).symm⟩
  | some chain =>
    refine ⟨?_, (Bool.or_true _).trans (Bool.or_true _).symm⟩
    change (delivery.classes.foldl (checkClass true) p).stats + ⟨0, 0, 1⟩ = _
    rw [hstats, add_assoc]
    rfl

/-- The sources are checked up to the first with a problem. -/
theorem checkSources_of_running (h : p.stopped = false) (hclean : p.stats.isClean = true)
    (deliveries : List Delivery) :
    (p.checkSources true deliveries).stats = p.stats +
      ⟨classesUpToProblem (deliveries.flatMap encounters), 0,
        (deliveries.find? Delivery.hasProblem).elim 0 Delivery.problems⟩ := by
  induction deliveries generalizing p with
  | nil => exact (add_zero p.stats).symm
  | cons delivery deliveries ih =>
    obtain ⟨hstats, hstopped⟩ := checkSource_of_running h hclean delivery
    rw [checkSources, List.foldl_cons, ← checkSources, List.flatMap_cons, List.find?_cons,
      classesUpToProblem_append, any_encounters]
    cases hproblem : delivery.hasProblem with
    | true =>
      rw [hproblem] at hstopped
      rw [checkSources_of_stopped true hstopped]
      exact hstats
    | false =>
      obtain ⟨hgood, hread⟩ := Bool.or_eq_false_iff.1 hproblem
      have hall : classesUpToProblem (encounters delivery) =
          (encounters delivery).countP Encounter.isClass :=
        classesUpToProblem_of_none ((any_encounters delivery).trans hproblem)
      rw [hproblem] at hstopped
      rw [Delivery.problems, hgood, hread, hall] at hstats
      have hstill : (p.checkSource true delivery).stats.isClean = true := by
        rw [hstats, Stats.isClean_add, hclean]
        rfl
      rw [ih hstopped hstill, hstats, add_assoc]
      congr 1
      exact congrArg (Stats.mk _ 0) (Nat.zero_add _)

end Progress

namespace Report

/-- One worker with fail-fast checks the classes up to and including the first that is a problem, or
up to the first source that ends in an error, or all of them. It counts no problem if there is none;
otherwise one, and a second one just if the source with the first problem has a class that is a
problem and ends in an error as well. -/
theorem run_failFast_alone (deliveries : List Delivery) :
    (run true 1 deliveries).stats.checked =
      (upToProblem (deliveries.flatMap encounters)).countP Encounter.isClass ∧
    (run true 1 deliveries).stats.mismatches + (run true 1 deliveries).stats.failures =
      (deliveries.find? Delivery.hasProblem).elim 0 fun delivery =>
        if delivery.hasBadClass && delivery.failure.isSome then 2 else 1 := by
  have hrun : (run true 1 deliveries).stats =
      ⟨classesUpToProblem (deliveries.flatMap encounters), 0,
        (deliveries.find? Delivery.hasProblem).elim 0 Delivery.problems⟩ := by
    change 0 + (Progress.checkSources true {} deliveries).stats = _
    rw [zero_add, Progress.checkSources_of_running rfl rfl]
    exact zero_add _
  rw [hrun]
  refine ⟨rfl, (Nat.zero_add _).trans ?_⟩
  cases hfind : deliveries.find? Delivery.hasProblem with
  | none => rfl
  | some delivery => exact Delivery.problems_eq (List.find?_some hfind)

/-- An archive with two entries of one byte each, which are no class files. Of the second one the
directory has another checksum. -/
def damagedArchive : Bytes :=
  -- the first entry
  [0x50, 0x4b, 3, 4, 0x14, 0, 0, 0, 0, 0, 0, 0, 0x21, 0, 0x8d, 0xef, 2, 0xd2, 1, 0, 0, 0, 1, 0,
   0, 0, 7, 0, 0, 0, 0x41, 0x2e, 0x63, 0x6c, 0x61, 0x73, 0x73, 0,
  -- the second entry
   0x50, 0x4b, 3, 4, 0x14, 0, 0, 0, 0, 0, 0, 0, 0x21, 0, 0x8c, 0xef, 2, 0xd2, 1, 0, 0, 0, 1, 0,
   0, 0, 7, 0, 0, 0, 0x42, 0x2e, 0x63, 0x6c, 0x61, 0x73, 0x73, 0,
  -- where the first entry is
   0x50, 0x4b, 1, 2, 0x14, 0, 0x14, 0, 0, 0, 0, 0, 0, 0, 0x21, 0, 0x8d, 0xef, 2, 0xd2, 1, 0, 0,
   0, 1, 0, 0, 0, 7, 0, 0, 0, 0, 0, 0, 0, 0, 0, 0, 0, 0, 0, 0, 0, 0, 0, 0x41, 0x2e, 0x63, 0x6c,
   0x61, 0x73, 0x73,
  -- where the second entry is
   0x50, 0x4b, 1, 2, 0x14, 0, 0x14, 0, 0, 0, 0, 0, 0, 0, 0x21, 0, 0x8c, 0xef, 2, 0xd2, 1, 0, 0,
   0, 1, 0, 0, 0, 7, 0, 0, 0, 0, 0, 0, 0, 0, 0, 0, 0, 0, 0, 0x26, 0, 0, 0, 0x42, 0x2e, 0x63,
   0x6c, 0x61, 0x73, 0x73,
  -- where the directory is
   0x50, 0x4b, 5, 6, 0, 0, 0, 0, 2, 0, 2, 0, 0x6a, 0, 0, 0, 0x4c, 0, 0, 0, 0, 0]

def damagedDelivery : Delivery :=
  Source.deliver { files := [([Utf8.encode "a.jar"], .plain damagedArchive)] }
    (.archive (.mk "a.jar"))

/-- The class that is a problem is counted, and so is the archive that cannot be read on. -/
theorem run_failFast_counts_two :
    ¬ (run true 1 [damagedDelivery]).stats.mismatches +
      (run true 1 [damagedDelivery]).stats.failures ≤ 1 := by
  have hstats : (run true 1 [damagedDelivery]).stats = ⟨1, 0, 2⟩ := by decide +kernel
  rw [hstats]
  decide

end Report

end ClassFormat
