import ClassFormat.Proofs.Layout
import ClassFormat.Source.Find
import Mathlib.Data.List.Sort

namespace ClassFormat

namespace PathComponent

def name : PathComponent → Bytes
  | .normal name => name
  | .root | .current | .parent => []

theorem compare_eq :
    PathComponent.compare = compareLex (compareOn rank) (compareOn name) := by
  funext a b
  cases a with
  | normal s =>
    cases b with
    | normal t => exact Ordering.eq_then.symm
    | _ => rfl
  | _ => cases b <;> rfl

theorem eq_of_rank_of_name {a b : PathComponent} (hrank : a.rank = b.rank)
    (hname : a.name = b.name) : a = b := by
  cases a <;> cases b <;> simp_all [rank, name]

instance : Std.TransCmp PathComponent.compare := by
  rw [compare_eq]
  infer_instance

instance : Std.LawfulEqCmp PathComponent.compare where
  compare_self := Std.ReflCmp.compare_self
  eq_of_compare {a b} h := by
    rw [compare_eq, compareLex, Ordering.then_eq_eq] at h
    exact eq_of_rank_of_name (Std.LawfulEqOrd.eq_of_compare h.1) (Std.LawfulEqOrd.eq_of_compare h.2)

end PathComponent

namespace Path

theorem compareComponents_eq (as bs : List PathComponent) :
    compareComponents as bs = List.compareLex PathComponent.compare as bs := by
  induction as generalizing bs with
  | nil => cases bs <;> rfl
  | cons a as ih =>
    cases bs with
    | nil => rfl
    | cons b bs => rw [compareComponents, List.compareLex_cons_cons, ih]

theorem compare_eq (a b : Path) :
    a.compare b = List.compareLex PathComponent.compare a.components b.components :=
  compareComponents_eq _ _

theorem compare_eq_eq {a b : Path} : a.compare b = .eq ↔ a.components = b.components := by
  rw [compare_eq]
  exact Std.LawfulEqCmp.compare_eq_iff_eq

instance : Std.TransCmp Path.compare where
  eq_swap {a b} := by
    rw [compare_eq, compare_eq]
    exact Std.OrientedCmp.eq_swap
  isLE_trans {a b c} hab hbc := by
    rw [compare_eq] at hab hbc ⊢
    exact Std.TransCmp.isLE_trans hab hbc

theorem extension?_congr {a b : Path} (h : a.components = b.components) :
    a.extension? = b.extension? := by
  unfold extension?
  rw [h]

end Path

namespace Source

def Before (a b : Source) : Prop := a.path.compare b.path = .lt

def NotAfter (a b : Source) : Prop := (a.path.compare b.path).isLE = true

theorem Before.trans_notAfter {a b c : Source} (hab : a.Before b) (hbc : b.NotAfter c) :
    a.Before c :=
  Std.TransCmp.lt_of_lt_of_isLE hab hbc

theorem Before.components_ne {a b : Source} (h : a.Before b) :
    a.path.components ≠ b.path.components := by
  intro hsame
  cases h.symm.trans (Path.compare_eq_eq.2 hsame)

theorem NotAfter.before {a b : Source} (h : a.NotAfter b)
    (hne : a.path.components ≠ b.path.components) : a.Before b := by
  have heq : a.path.compare b.path ≠ .eq := fun heq => hne (Path.compare_eq_eq.1 heq)
  cases hcompare : a.path.compare b.path with
  | lt => exact hcompare
  | eq => exact absurd hcompare heq
  | gt => rw [NotAfter, hcompare] at h; cases h

/-- A source that is of the kind its own path gives. -/
def Genuine (source : Source) : Prop := ofPath? source.path = some source

theorem path_of_ofPath? {path : Path} {source : Source} (h : ofPath? path = some source) :
    source.path = path := by
  unfold ofPath? at h
  split at h <;> cases h <;> rfl

theorem genuine_of_ofPath? {path : Path} {source : Source} (h : ofPath? path = some source) :
    source.Genuine := by
  have hpath := path_of_ofPath? h
  subst hpath
  exact h

theorem isSome_ofPath?_iff {path : Path} :
    (ofPath? path).isSome ↔ path.extension? ∈ [some "class", some "jar", some "zip"] := by
  unfold ofPath?
  split <;> simp_all

theorem components_of_same {a b : Source} (h : a.same b = true) :
    a.path.components = b.path.components := by
  unfold same at h
  split at h
  · exact eq_of_beq h
  · exact eq_of_beq h
  · cases h

theorem genuine_classFile {path : Path} :
    (classFile path).Genuine ↔ path.extension? = some "class" := by
  unfold Genuine ofPath?
  simp only [Source.path]
  split <;> simp_all

theorem genuine_archive {path : Path} :
    (archive path).Genuine ↔ path.extension? = some "jar" ∨ path.extension? = some "zip" := by
  unfold Genuine ofPath?
  simp only [Source.path]
  split <;> simp_all

/-- Equal paths give equal kinds. -/
theorem Genuine.same {a b : Source} (ha : a.Genuine) (hb : b.Genuine)
    (h : a.path.components = b.path.components) : a.same b = true := by
  have hextension := Path.extension?_congr h
  cases a with
  | classFile p =>
    cases b with
    | classFile q => exact beq_iff_eq.2 h
    | archive q =>
      change p.extension? = q.extension? at hextension
      rw [genuine_archive, ← hextension, genuine_classFile.1 ha] at hb
      simp at hb
  | archive p =>
    cases b with
    | classFile q =>
      change p.extension? = q.extension? at hextension
      rw [genuine_archive, hextension, genuine_classFile.1 hb] at ha
      simp at ha
    | archive q => exact beq_iff_eq.2 h

theorem dedup_sublist (sources : List Source) : (dedup sources).Sublist sources := by
  fun_induction dedup sources with
  | case1 => exact .refl []
  | case2 a => exact .refl [a]
  | case3 a b sources hsame ih => exact ih.trans ((List.sublist_cons_self b sources).cons_cons a)
  | case4 a b sources hsame ih => exact ih.cons_cons a

theorem exists_mem_dedup {sources : List Source} {a : Source} (h : a ∈ sources) :
    ∃ b ∈ dedup sources, b.path.components = a.path.components := by
  fun_induction dedup sources generalizing a with
  | case1 => cases h
  | case2 c => exact ⟨a, h, rfl⟩
  | case3 c d sources hsame ih =>
    rcases List.mem_cons.1 h with rfl | h
    · exact ih List.mem_cons_self
    · rcases List.mem_cons.1 h with rfl | h
      · rw [← components_of_same hsame]
        exact ih List.mem_cons_self
      · exact ih (List.mem_cons_of_mem c h)
  | case4 c d sources hsame ih =>
    rcases List.mem_cons.1 h with rfl | h
    · exact ⟨a, List.mem_cons_self, rfl⟩
    · obtain ⟨b, hb, hpath⟩ := ih h
      exact ⟨b, List.mem_cons_of_mem c hb, hpath⟩

/-- In sorted sources, those with equal paths are neighbours. -/
theorem pairwise_before_dedup {sources : List Source} (hsorted : sources.Pairwise NotAfter)
    (hgenuine : ∀ s ∈ sources, s.Genuine) : (dedup sources).Pairwise Before := by
  fun_induction dedup sources with
  | case1 => exact .nil
  | case2 a => exact List.pairwise_singleton _ _
  | case3 a b sources hsame ih =>
    have hkept : (a :: sources).Sublist (a :: b :: sources) :=
      (List.sublist_cons_self b sources).cons_cons a
    exact ih (hsorted.sublist hkept) fun s hs => hgenuine s (hkept.subset hs)
  | case4 a b sources hsame ih =>
    obtain ⟨hfirst, hrest⟩ := List.pairwise_cons.1 hsorted
    obtain ⟨hsecond, -⟩ := List.pairwise_cons.1 hrest
    obtain ⟨ha, hgenuine⟩ := List.forall_mem_cons.1 hgenuine
    -- two neighbours that are kept have different paths, since equal ones give equal kinds
    have hne : a.path.components ≠ b.path.components := fun hpath =>
      hsame (ha.same (hgenuine b List.mem_cons_self) hpath)
    have hbefore : a.Before b := (hfirst b List.mem_cons_self).before hne
    refine List.pairwise_cons.2 ⟨fun c hc => ?_, ih hrest hgenuine⟩
    -- behind the second there may be others, which it is not after
    rcases List.mem_cons.1 ((dedup_sublist _).subset hc) with rfl | hc
    · exact hbefore
    · exact hbefore.trans_notAfter (hsecond c hc)

variable {sources sources' : List Source}

theorem pairwise_mergeSort (sources : List Source) :
    (sources.mergeSort fun a b => a.path.compare b.path != .gt).Pairwise NotAfter := by
  have hle (a b : Source) : (a.path.compare b.path != .gt) = (a.path.compare b.path).isLE := by
    cases a.path.compare b.path <;> rfl
  simp only [hle]
  apply List.pairwise_mergeSort
  · intro a b c hab hbc
    exact Std.TransCmp.isLE_trans hab hbc
  · intro a b
    have hswap : b.path.compare a.path = (a.path.compare b.path).swap := Std.OrientedCmp.eq_swap
    rw [hswap]
    cases a.path.compare b.path <;> rfl

theorem pairwise_before_arrange (hgenuine : ∀ s ∈ sources, s.Genuine) :
    (arrange sources).Pairwise Before := by
  apply pairwise_before_dedup (pairwise_mergeSort sources)
  intro s hs
  exact hgenuine s (List.mem_mergeSort.1 hs)

theorem mem_of_mem_arrange {s : Source} (h : s ∈ arrange sources) : s ∈ sources :=
  List.mem_mergeSort.1 ((dedup_sublist _).subset h)

theorem exists_mem_arrange {s : Source} (h : s ∈ sources) :
    ∃ t ∈ arrange sources, t.path.components = s.path.components :=
  exists_mem_dedup (List.mem_mergeSort.2 h)

theorem forall₂_same (hgenuine : ∀ s ∈ sources, s.Genuine) (hgenuine' : ∀ s ∈ sources', s.Genuine)
    (h : sources.map (·.path.components) = sources'.map (·.path.components)) :
    List.Forall₂ (fun a b => a.same b = true) sources sources' := by
  induction sources generalizing sources' with
  | nil =>
    rw [List.map_nil, eq_comm, List.map_eq_nil_iff] at h
    rw [h]
    exact .nil
  | cons a sources ih =>
    obtain ⟨b, rest, rfl, hfirst, hrest⟩ := List.map_eq_cons_iff.1 h.symm
    obtain ⟨ha, hsources⟩ := List.forall_mem_cons.1 hgenuine
    obtain ⟨hb, hsources'⟩ := List.forall_mem_cons.1 hgenuine'
    exact .cons (ha.same hb hfirst.symm) (ih hsources hsources' hrest.symm)

theorem nodup_components_arrange (hgenuine : ∀ s ∈ sources, s.Genuine) :
    ((arrange sources).map (·.path.components)).Nodup :=
  List.pairwise_map.2 ((pairwise_before_arrange hgenuine).imp fun h => h.components_ne)

theorem mem_components_arrange {components : List PathComponent} :
    components ∈ (arrange sources).map (·.path.components) ↔
      ∃ s ∈ sources, s.path.components = components := by
  rw [List.mem_map]
  constructor
  · rintro ⟨s, hs, hpath⟩
    exact ⟨s, mem_of_mem_arrange hs, hpath⟩
  · rintro ⟨s, hs, rfl⟩
    exact exists_mem_arrange hs

/-- Only the paths among the sources matter, not their order or how often they are there. -/
theorem arrange_congr (hgenuine : ∀ s ∈ sources, s.Genuine) (hgenuine' : ∀ s ∈ sources', s.Genuine)
    (h : ∀ components, (∃ s ∈ sources, s.path.components = components) ↔
      ∃ s ∈ sources', s.path.components = components) :
    List.Forall₂ (fun a b => a.same b = true) (arrange sources) (arrange sources') := by
  -- both are sorted strictly and hold the same paths, so they are one list of paths
  have hperm : ((arrange sources).map (·.path.components)).Perm
      ((arrange sources').map (·.path.components)) := by
    rw [List.perm_ext_iff_of_nodup (nodup_components_arrange hgenuine)
      (nodup_components_arrange hgenuine')]
    intro components
    rw [mem_components_arrange, mem_components_arrange, h]
  have hsorted {sources : List Source} (hgenuine : ∀ s ∈ sources, s.Genuine) :
      ((arrange sources).map (·.path.components)).Pairwise
        fun a b => Path.compareComponents a b = .lt :=
    List.pairwise_map.2 (pairwise_before_arrange hgenuine)
  -- two paths are not each before the other
  have hantisymm (a b : List PathComponent) (hab : Path.compareComponents a b = .lt)
      (hba : Path.compareComponents b a = .lt) : a = b := by
    rw [Path.compareComponents_eq] at hab hba
    cases (Std.OrientedCmp.gt_of_lt hab).symm.trans hba
  apply forall₂_same
  · exact fun s hs => hgenuine s (mem_of_mem_arrange hs)
  · exact fun s hs => hgenuine' s (mem_of_mem_arrange hs)
  · exact hperm.eq_of_pairwise (fun a b _ _ => hantisymm a b) (hsorted hgenuine) (hsorted hgenuine')

/-- A file that the walk of one of the paths finds. -/
def Found (walk : Path → Except WalkFailure (List Path)) (paths : List Path) (file : Path) : Prop :=
  ∃ path ∈ paths, ∃ found, walk path = .ok found ∧ file ∈ found

variable {walk : Path → Except WalkFailure (List Path)} {paths paths' : List Path}

theorem collect_of_ok (h : ∀ path ∈ paths, ∃ found, walk path = .ok found) :
    (collect walk paths).2 = none ∧
      ∀ s, s ∈ (collect walk paths).1 ↔ ∃ file, Found walk paths file ∧ ofPath? file = some s := by
  induction paths with
  | nil => simp [collect, Found]
  | cons path paths ih =>
    obtain ⟨⟨found, hfound⟩, hrest⟩ := List.forall_mem_cons.1 h
    obtain ⟨hnone, hmem⟩ := ih hrest
    -- the walk of the first path succeeds, so that collecting goes on
    rw [collect, hfound]
    refine ⟨hnone, fun s => ?_⟩
    simp only [List.mem_append, List.mem_filterMap, hmem, Found, List.mem_cons]
    grind

theorem search_of_ok (h : ∀ path ∈ paths, ∃ found, walk path = .ok found) :
    search walk paths = .ok (arrange (collect walk paths).1) := by
  have hcollect : collect walk paths = ((collect walk paths).1, none) :=
    Prod.ext rfl (collect_of_ok h).1
  rw [search, searchLogged, hcollect]

theorem genuine_of_mem_collect (h : ∀ path ∈ paths, ∃ found, walk path = .ok found) :
    ∀ s ∈ (collect walk paths).1, s.Genuine := by
  intro s hs
  obtain ⟨file, -, hfile⟩ := ((collect_of_ok h).2 s).1 hs
  exact genuine_of_ofPath? hfile

/-- The paths of sources that are met are those of the found files with a suitable extension. -/
theorem exists_mem_collect_iff (h : ∀ path ∈ paths, ∃ found, walk path = .ok found)
    {components : List PathComponent} :
    (∃ s ∈ (collect walk paths).1, s.path.components = components) ↔
      ∃ file, Found walk paths file ∧ file.components = components ∧
        file.extension? ∈ [some "class", some "jar", some "zip"] := by
  constructor
  · rintro ⟨s, hs, hpath⟩
    obtain ⟨file, hfound, hfile⟩ := ((collect_of_ok h).2 s).1 hs
    rw [path_of_ofPath? hfile] at hpath
    exact ⟨file, hfound, hpath, isSome_ofPath?_iff.1 (by rw [hfile]; rfl)⟩
  · rintro ⟨file, hfound, hpath, hextension⟩
    obtain ⟨s, hs⟩ := Option.isSome_iff_exists.1 (isSome_ofPath?_iff.2 hextension)
    refine ⟨s, ((collect_of_ok h).2 s).2 ⟨file, hfound, hs⟩, ?_⟩
    rw [path_of_ofPath? hs, hpath]

theorem search_congr (h : ∀ path ∈ paths, ∃ found, walk path = .ok found)
    (h' : ∀ path ∈ paths', ∃ found, walk path = .ok found)
    (hfound : ∀ file, Found walk paths file ↔ Found walk paths' file) :
    List.Forall₂ (fun a b => a.same b = true) (arrange (collect walk paths).1)
      (arrange (collect walk paths').1) := by
  apply arrange_congr (genuine_of_mem_collect h) (genuine_of_mem_collect h')
  intro components
  rw [exists_mem_collect_iff h, exists_mem_collect_iff h']
  simp only [hfound]

/-- Whatever the walks of the paths find, the sources come in the order of their paths, no two with
the same one. There is one for each path of a found file with a suitable extension and for no other,
of the kind that the path gives. To give the paths in another order or more than once leads to the
same sources. -/
theorem search_ordered_and_complete
    (h : ∀ path ∈ paths, ∃ found, walk path = .ok found) :
    ∃ sources, search walk paths = .ok sources ∧
      sources.Pairwise (fun a b => a.path.compare b.path = .lt) ∧
      sources.Pairwise (fun a b => a.path.components ≠ b.path.components) ∧
      (∀ s ∈ sources, Found walk paths s.path ∧ ofPath? s.path = some s) ∧
      (∀ path : Path, (∃ s ∈ sources, s.path.components = path.components) ↔
        ∃ file, Found walk paths file ∧ file.components = path.components ∧
          file.extension? ∈ [some "class", some "jar", some "zip"]) ∧
      ∀ paths' : List Path, (∀ path, path ∈ paths' ↔ path ∈ paths) →
        ∃ sources', search walk paths' = .ok sources' ∧
          List.Forall₂ (fun a b => a.same b = true) sources sources' := by
  have hgenuine := genuine_of_mem_collect h
  refine ⟨_, search_of_ok h, pairwise_before_arrange hgenuine, ?_, ?_, ?_, ?_⟩
  · exact (pairwise_before_arrange hgenuine).imp fun hbefore => hbefore.components_ne
  · intro s hs
    obtain ⟨file, hfound, hfile⟩ := ((collect_of_ok h).2 s).1 (mem_of_mem_arrange hs)
    rw [path_of_ofPath? hfile]
    exact ⟨hfound, hfile⟩
  · intro path
    rw [← exists_mem_collect_iff h]
    exact List.mem_map.symm.trans mem_components_arrange
  · intro paths' hsame
    have h' : ∀ path ∈ paths', ∃ found, walk path = .ok found :=
      fun path hpath => h path ((hsame path).1 hpath)
    refine ⟨_, search_of_ok h', search_congr h h' fun file => ?_⟩
    simp only [Found, hsame]

/-- An archive and a class file in a directory, beside a file of another kind. The name of the class
file is not UTF-8. -/
def library : FileTree where
  files := [(["work", "a", "lib.jar"].map Utf8.encode, .archive []),
    ([Utf8.encode "work", Utf8.encode "a", 0xff :: Utf8.encode ".class"], .plain []),
    (["work", "a", "README"].map Utf8.encode, .plain [])]
  workingDirectory := [Utf8.encode "work"]

theorem walk_library : library.walk (.mk "a") =
    .ok [.mk "a/lib.jar", .ofBytes (Utf8.encode "a/" ++ 0xff :: Utf8.encode ".class"),
      .mk "a/README"] :=
  eq_ok_of_toOption (by decide +kernel)

theorem walk_library_file : library.walk (.mk "a//lib.jar") = .ok [.mk "a//lib.jar"] :=
  eq_ok_of_toOption (by decide +kernel)

/-- The directory is given twice, and a file in it by itself and in another spelling. -/
theorem search_ordered_and_complete_library :
    ∃ sources, search library.walk [.mk "a", .mk "a//lib.jar", .mk "a"] = .ok sources ∧
      sources.Pairwise (fun a b => a.path.compare b.path = .lt) ∧
      (∃ s ∈ sources, s.path.components = [.normal (Utf8.encode "a"),
        .normal (Utf8.encode "lib.jar")]) ∧
      (∃ s ∈ sources, s.path.components = [.normal (Utf8.encode "a"),
        .normal (0xff :: Utf8.encode ".class")]) ∧
      ∃ sources', search library.walk [.mk "a//lib.jar", .mk "a"] = .ok sources' ∧
        List.Forall₂ (fun a b => a.same b = true) sources sources' := by
  have hwalk : ∀ path ∈ [.mk "a", .mk "a//lib.jar", .mk "a"],
      ∃ found, library.walk path = .ok found := by
    simp [walk_library, walk_library_file]
  obtain ⟨sources, hsearch, hordered, -, -, hcomplete, hsame⟩ := search_ordered_and_complete hwalk
  have hfile : Found library.walk [.mk "a", .mk "a//lib.jar", .mk "a"] (.mk "a//lib.jar") :=
    ⟨.mk "a//lib.jar", by simp, _, walk_library_file, by simp⟩
  have hbytes : Found library.walk [.mk "a", .mk "a//lib.jar", .mk "a"]
      (.ofBytes (Utf8.encode "a/" ++ 0xff :: Utf8.encode ".class")) :=
    ⟨.mk "a", by simp, _, walk_library, by simp⟩
  refine ⟨sources, hsearch, hordered, ?_, ?_, hsame _ (by simp)⟩
  · exact (hcomplete (.mk "a//lib.jar")).2 ⟨_, hfile, rfl, by decide +kernel⟩
  · exact (hcomplete _).2 ⟨_, hbytes, rfl, by decide +kernel⟩

end Source

end ClassFormat
