import ShaderLibrary.Proofs.WriteOnce

/-! Scans of folders. A scan has the last path of each name, whatever stood in the catalog before,
and one that fails leaves the catalog alone, however far it has come. -/
namespace ShaderLibrary

namespace Catalog

variable {c : Catalog} {strict : Bool} {found : Dictionary Text} {seen paths : List Text}
  {name path earlier : Text}

/-- The last of the paths with this bare name. -/
def lastNamed? (paths : List Text) (name : Text) : Option Text :=
  paths.reverse.find? fun path => Path.baseName path = name

theorem lastNamed?_append_singleton (seen : List Text) (path name : Text) :
    lastNamed? (seen ++ [path]) name =
      if Path.baseName path = name then some path else lastNamed? seen name := by
  rw [lastNamed?, List.reverse_concat, List.find?_cons]
  by_cases hName : Path.baseName path = name
  · simp [hName]
  · simp [hName, lastNamed?]

/-- The last element with a property is the one with none behind it. -/
theorem find?_reverse_eq_some_iff {p : Text → Bool} : paths.reverse.find? p = some path ↔
    p path = true ∧ ∃ before after, paths = before ++ path :: after ∧
      ∀ later ∈ after, p later = false := by
  rw [List.find?_eq_some_iff_append]
  refine and_congr_right fun _ => ?_
  constructor
  · rintro ⟨after, before, hSplit, hAfter⟩
    refine ⟨before.reverse, after.reverse, ?_, by simpa using hAfter⟩
    rw [← List.reverse_reverse paths, hSplit]
    simp
  · rintro ⟨before, after, rfl, hAfter⟩
    exact ⟨after.reverse, before.reverse, by simp, by simpa using hAfter⟩

theorem mem_of_lastNamed? (h : lastNamed? paths name = some path) :
    path ∈ paths ∧ Path.baseName path = name := by
  obtain ⟨hName, before, after, rfl, -⟩ := find?_reverse_eq_some_iff.mp h
  exact ⟨by simp, by simpa using hName⟩

theorem lastNamed?_eq_none_iff :
    lastNamed? paths name = none ↔ ∀ path ∈ paths, Path.baseName path ≠ name := by
  simp [lastNamed?]

/-- The path of the same name before `path`, if it is another one. -/
def displaced? (before : List Text) (path : Text) : Option Text :=
  (lastNamed? before (Path.baseName path)).filter (· ≠ path)

/-- The paths that take the place of another one, each behind that one. -/
def displacements (before : List Text) : List Text → List (Text × Text)
  | [] => []
  | path :: rest =>
    ((displaced? before path).map fun earlier => (earlier, path)).toList ++
      displacements (before ++ [path]) rest

theorem displaced?_eq_some_iff : displaced? seen path = some earlier ↔
    lastNamed? seen (Path.baseName path) = some earlier ∧ earlier ≠ path := by
  simp [displaced?, Option.filter_eq_some_iff]

theorem displaced?_eq_none_iff : displaced? seen path = none ↔
    ∀ earlier, lastNamed? seen (Path.baseName path) = some earlier → earlier = path := by
  simp [displaced?, Option.filter_eq_none_iff]

/-- The record of a path that takes the place of another one. -/
def displacementRecord (displacement : Text × Text) : Record where
  severity := .warning
  message := "Duplicate shader file name '".toList ++ Path.baseName displacement.2 ++
    "': ".toList ++ displacement.2 ++ " replaces ".toList ++ displacement.1

/-- The dictionary knows for each name the last of the paths. -/
def Finds (found : Dictionary Text) (paths : List Text) : Prop :=
  ∀ name, found.get? name = lastNamed? paths name

theorem Finds.insert (h : Finds found seen) (path : Text) :
    Finds (found.insert (Path.baseName path) path) (seen ++ [path]) := by
  intro name
  rw [Dictionary.get?_insert, lastNamed?_append_singleton, h name]
  simp only [eq_comm]

theorem enter_of_same (h : Finds found seen) (hSame : displaced? seen path = none) :
    enter strict found path = pure (found.insert (Path.baseName path) path) := by
  unfold enter
  dsimp only
  split
  · rfl
  · next earlier hKnown =>
      rw [h] at hKnown
      rw [if_pos (displaced?_eq_none_iff.mp hSame earlier hKnown)]

theorem enter_of_displaced (h : Finds found seen) (hOther : displaced? seen path = some earlier) :
    enter strict found path =
      if strict = true then .fail (.duplicateName (Path.baseName path) earlier path)
      else ⟨[.logged (displacementRecord (earlier, path))],
        .ok (found.insert (Path.baseName path) path)⟩ := by
  obtain ⟨hLast, hNe⟩ := displaced?_eq_some_iff.mp hOther
  rw [← h] at hLast
  simp only [enter, hLast, if_neg hNe]
  split <;> rfl

/-- A lenient catalog takes all paths, and warns of each displacement. A strict one takes them if
there is none. -/
theorem exists_enterAll_eq (h : Finds found seen)
    (hAdmitted : strict = false ∨ displacements seen paths = []) :
    ∃ next, Finds next (seen ++ paths) ∧ enterAll strict found paths =
      ⟨(displacements seen paths).map (.logged ∘ displacementRecord), .ok next⟩ := by
  induction paths generalizing seen found with
  | nil => exact ⟨found, by simpa using h, rfl⟩
  | cons path rest ih =>
      rw [enterAll]
      cases hPlace : displaced? seen path with
      | none =>
          have hHere : displacements seen (path :: rest) = displacements (seen ++ [path]) rest := by
            rw [displacements, hPlace]
            rfl
          rw [hHere] at hAdmitted ⊢
          obtain ⟨next, hNext, hRest⟩ := ih (h.insert path) hAdmitted
          refine ⟨next, by simpa using hNext, ?_⟩
          rw [enter_of_same h hPlace, Traced.bind_of_ok _ (Traced.outcome_pure _), hRest]
          rfl
      | some earlier =>
          have hHere : displacements seen (path :: rest) =
              (earlier, path) :: displacements (seen ++ [path]) rest := by
            rw [displacements, hPlace]
            rfl
          have hLenient : strict = false := by
            rw [hHere] at hAdmitted
            exact hAdmitted.resolve_right (List.cons_ne_nil _ _)
          subst hLenient
          obtain ⟨next, hNext, hRest⟩ := ih (h.insert path) (Or.inl rfl)
          refine ⟨next, by simpa using hNext, ?_⟩
          rw [enter_of_displaced h hPlace, if_neg Bool.false_ne_true,
            Traced.bind_of_ok _ rfl, hRest, hHere]
          rfl

/-- A strict catalog stops at the first displacement. -/
theorem enterAll_of_displaced {others : List (Text × Text)} (h : Finds found seen)
    (hOther : displacements seen paths = (earlier, path) :: others) :
    enterAll true found paths = .fail (.duplicateName (Path.baseName path) earlier path) := by
  induction paths generalizing seen found with
  | nil => cases hOther
  | cons first rest ih =>
      rw [enterAll]
      cases hPlace : displaced? seen first with
      | none =>
          rw [displacements, hPlace] at hOther
          rw [enter_of_same h hPlace, Traced.bind_of_ok _ (Traced.outcome_pure _),
            ih (h.insert first) hOther]
          rfl
      | some other =>
          rw [displacements, hPlace] at hOther
          cases hOther
          rw [enter_of_displaced h hPlace, if_pos rfl, Traced.bind_of_error _ rfl]
          rfl

/-- No two paths share their bare name. -/
def NamedApart (paths : List Text) : Prop :=
  ∀ a ∈ paths, ∀ b ∈ paths, Path.baseName a = Path.baseName b → a = b

theorem mem_of_mem_displacements (h : (earlier, path) ∈ displacements seen paths) :
    earlier ∈ seen ++ paths ∧ path ∈ seen ++ paths ∧ Path.baseName earlier = Path.baseName path ∧
      earlier ≠ path := by
  induction paths generalizing seen with
  | nil => cases h
  | cons first rest ih =>
      rw [displacements, List.mem_append] at h
      rcases h with hHere | hRest
      · have hPair : displaced? seen first = some earlier ∧ first = path := by simpa using hHere
        obtain ⟨hPlace, rfl⟩ := hPair
        obtain ⟨hLast, hNe⟩ := displaced?_eq_some_iff.mp hPlace
        obtain ⟨hMem, hName⟩ := mem_of_lastNamed? hLast
        exact ⟨List.mem_append_left _ hMem, by simp, hName, hNe⟩
      · simpa using ih hRest

theorem namedApart_of_displacements_eq_nil (h : displacements seen paths = [])
    (hSeen : NamedApart seen) : NamedApart (seen ++ paths) := by
  induction paths generalizing seen with
  | nil => simpa using hSeen
  | cons path rest ih =>
      rw [displacements, List.append_eq_nil_iff] at h
      obtain ⟨hHere, hRest⟩ := h
      have hPlace : displaced? seen path = none := by simpa using hHere
      -- the last one of the name is the path itself, so all of that name are
      have hSame : ∀ a ∈ seen, Path.baseName a = Path.baseName path → a = path := by
        intro a ha hName
        cases hLast : lastNamed? seen (Path.baseName path) with
        | none => exact absurd hName (lastNamed?_eq_none_iff.mp hLast a ha)
        | some last =>
            have hPath := displaced?_eq_none_iff.mp hPlace last hLast
            subst hPath
            exact hSeen a ha last (mem_of_lastNamed? hLast).1 hName
      have hMore : NamedApart (seen ++ [path]) := by
        intro a ha b hb hName
        rcases List.mem_append.mp ha with ha | ha
        · rcases List.mem_append.mp hb with hb | hb
          · exact hSeen a ha b hb hName
          · rw [List.mem_singleton.mp hb] at hName ⊢
            exact hSame a ha hName
        · rw [List.mem_singleton.mp ha] at hName ⊢
          rcases List.mem_append.mp hb with hb | hb
          · exact (hSame b hb hName.symm).symm
          · exact (List.mem_singleton.mp hb).symm
      simpa using ih hRest hMore

theorem displacements_eq_nil_iff : displacements [] paths = [] ↔ NamedApart paths := by
  constructor
  · intro h
    exact namedApart_of_displacements_eq_nil h fun a ha => absurd ha List.not_mem_nil
  · intro h
    apply List.eq_nil_iff_forall_not_mem.mpr
    rintro ⟨earlier, path⟩ hMem
    obtain ⟨hEarlier, hPath, hName, hNe⟩ := mem_of_mem_displacements hMem
    exact hNe (h earlier hEarlier path hPath hName)

/-- The warnings of entered paths are those of the displacements. -/
theorem warnings_displaced {ε α : Type} (displacements : List (Text × Text)) {rest : Traced ε α}
    (hRest : rest.warnings = []) :
    (⟨displacements.map (.logged ∘ displacementRecord) ++ rest.events, rest.outcome⟩ :
      Traced ε α).warnings = displacements.map displacementRecord := by
  rw [Traced.warnings, Traced.records] at hRest ⊢
  have hRecords : Event.logged? ∘ Event.logged ∘ displacementRecord =
      some ∘ displacementRecord := rfl
  rw [List.filterMap_append, List.filter_append, hRest, List.append_nil, List.filterMap_map,
    hRecords, List.filterMap_eq_map]
  apply List.filter_eq_self.mpr
  intro record hRecord
  obtain ⟨displacement, -, rfl⟩ := List.mem_map.mp hRecord
  rfl

variable {store : Store} {root : Text}

/-- The listed paths that belong in the catalog. -/
def listed (c : Catalog) (store : Store) (root : Text) : List Text :=
  (store.list root).paths.filter c.admits

/-- The path belongs in the catalog, under this bare name. -/
def Fits (c : Catalog) (name path : Text) : Prop :=
  c.extension <:+ path ∧ Path.baseName path = name

instance (c : Catalog) (name path : Text) : Decidable (c.Fits name path) :=
  inferInstanceAs (Decidable (_ ∧ _))

/-- The last of the paths that belong in the catalog under this name. -/
def Latest (c : Catalog) (paths : List Text) (name path : Text) : Prop :=
  c.Fits name path ∧ ∃ before after, paths = before ++ path :: after ∧
    ∀ later ∈ after, ¬ c.Fits name later

theorem mem_listed_iff : path ∈ c.listed store root ↔
    path ∈ (store.list root).paths ∧ c.Fits (Path.baseName path) path := by
  rw [listed, List.mem_filter, admits, List.isSuffixOf_iff_suffix, Fits, and_iff_left rfl]

theorem latest_iff : c.Latest (store.list root).paths name path ↔
    lastNamed? (c.listed store root) name = some path := by
  have hFits (p : Text) : decide (c.admits p = true ∧ decide (Path.baseName p = name) = true) = true ↔
      c.Fits name p := by
    simp [admits, Fits]
  rw [lastNamed?, listed, ← List.filter_reverse, List.find?_filter, find?_reverse_eq_some_iff]
  simp only [Latest, ← Bool.not_eq_true, hFits]

/-- What a scan does. It is refused by a strict catalog, it fails with the listing, or it comes to
its end. -/
theorem scan_cases (c : Catalog) (store : Store) (root : Text) :
    (c.strict = true ∧ ∃ earlier path others,
      displacements [] (c.listed store root) = (earlier, path) :: others ∧
      c.scan store root = .fail (.duplicateName (Path.baseName path) earlier path)) ∨
    ((c.strict = false ∨ displacements [] (c.listed store root) = []) ∧
      ((∃ e, (store.list root).failure = some e ∧
          (c.scan store root).outcome = .error (.store e)) ∨
        ((store.list root).failure = none ∧ ∃ found, Finds found (c.listed store root) ∧
          (c.scan store root).outcome = .ok (c.add found, found.size) ∧
          (c.scan store root).warnings =
            (displacements [] (c.listed store root)).map displacementRecord))) := by
  have hNone : Finds ∅ [] := fun name => rfl
  by_cases hAdmitted : c.strict = false ∨ displacements [] (c.listed store root) = []
  · refine Or.inr ⟨hAdmitted, ?_⟩
    obtain ⟨found, hFound, hAll⟩ := exists_enterAll_eq hNone hAdmitted
    have hScan : c.scan store root = (enterAll c.strict ∅ (c.listed store root) >>= _) := rfl
    rw [hScan, Traced.bind_of_ok _ (congrArg Traced.outcome hAll), hAll]
    cases hFailure : (store.list root).failure with
    | some e => exact Or.inl ⟨e, rfl, rfl⟩
    | none =>
        refine Or.inr ⟨rfl, found, hFound, rfl, ?_⟩
        exact warnings_displaced _ rfl
  · obtain ⟨hStrict, hSome⟩ := not_or.mp hAdmitted
    have hStrict : c.strict = true := Bool.eq_true_of_not_eq_false hStrict
    obtain ⟨⟨earlier, path⟩, others, hOther⟩ := List.exists_cons_of_ne_nil hSome
    refine Or.inl ⟨hStrict, earlier, path, others, hOther, ?_⟩
    have hAll := enterAll_of_displaced hNone hOther
    have hScan : c.scan store root = (enterAll c.strict ∅ (c.listed store root) >>= _) := rfl
    rw [hScan, hStrict, Traced.bind_of_error _ (congrArg Traced.outcome hAll), hAll]
    rfl

/-- The answer to the question for a name. -/
def pathOf (c : Catalog) (name : Text) : Except Problem Text :=
  (c.resolve name).outcome.map Subtype.val

theorem pathOf_eq (c : Catalog) (name : Text) :
    c.pathOf name = (c.find? name).elim (.error (.unknownFile name)) .ok := by
  rw [pathOf]
  cases hFound : c.find? name with
  | none =>
      have hResolve := Environment.outcome_resolve_eq_error_iff.mpr ⟨hFound, rfl⟩
      rw [hResolve]
      rfl
  | some path =>
      have hResolve : (c.resolve name).outcome = .ok ⟨path, Dictionary.mem_values_of_get? hFound⟩ :=
        Environment.outcome_resolve_eq_ok_iff.mpr hFound
      rw [hResolve]
      rfl

theorem pathOf_eq_ok_iff : c.pathOf name = .ok path ↔ c.find? name = some path := by
  rw [pathOf_eq]
  cases c.find? name <;> simp

/-- What has been found comes before what was there. -/
theorem find?_add (h : Finds found paths) (c : Catalog) (name : Text) :
    (c.add found).find? name = (lastNamed? paths name).or (c.find? name) := by
  rw [← h name]
  exact Dictionary.get?_insertMany c.paths found name

/-- Every name leads to a path of that name with the right ending. -/
def Sound (c : Catalog) : Prop := ∀ name path, c.pathOf name = .ok path → c.Fits name path

theorem Sound.add (h : c.Sound) (hFound : Finds found (c.listed store root)) :
    (c.add found).Sound := by
  intro name path hPath
  rw [pathOf_eq_ok_iff, find?_add hFound] at hPath
  show c.Fits name path
  cases hLast : lastNamed? (c.listed store root) name with
  | none =>
      rw [hLast, Option.none_or] at hPath
      exact h name path (pathOf_eq_ok_iff.mpr hPath)
  | some last =>
      rw [hLast, Option.some_or] at hPath
      cases hPath
      obtain ⟨hMem, rfl⟩ := mem_of_lastNamed? hLast
      exact (mem_listed_iff.mp hMem).2

/-- Two names never lead to one path. -/
theorem Sound.name_unique {other : Text} (h : c.Sound) (hName : c.pathOf name = .ok path)
    (hOther : c.pathOf other = .ok path) : name = other :=
  (h name path hName).2.symm.trans (h other path hOther).2

theorem exists_names (h : Finds found (c.listed store root)) :
    ∃ names : List Text, names.Nodup ∧
      (∀ name, name ∈ names ↔ ∃ path ∈ (store.list root).paths, c.Fits name path) ∧
      found.size = names.length := by
  refine ⟨found.keys, found.nodup_keys, fun name => ?_, (List.length_map _).symm⟩
  rw [Dictionary.mem_keys_iff]
  constructor
  · rintro ⟨path, hPath⟩
    rw [h name] at hPath
    obtain ⟨hMem, rfl⟩ := mem_of_lastNamed? hPath
    exact ⟨path, mem_listed_iff.mp hMem⟩
  · rintro ⟨path, hMem, hFits, rfl⟩
    have hListed : path ∈ c.listed store root := mem_listed_iff.mpr ⟨hMem, hFits, rfl⟩
    cases hLast : lastNamed? (c.listed store root) (Path.baseName path) with
    | none => exact absurd rfl (lastNamed?_eq_none_iff.mp hLast path hListed)
    | some last => exact ⟨last, (h _).trans hLast⟩

end Catalog

namespace Session

open Catalog

variable {s : Session} {root : Text}

/-- A scan that has come to its end is answered by its number of names. -/
theorem perform_scan_of_ok {next : Catalog} {count : Nat}
    (h : (s.library.catalog.scan s.store root).outcome = .ok (next, count)) :
    s.perform (.scan root) = (⟨(s.library.catalog.scan s.store root).events, .ok (.count count)⟩,
      { s with library := { s.library with catalog := next } }) := by
  simp only [perform, settle, h]

/-- A scan that fails changes nothing. -/
theorem perform_scan_of_error {fault : Fault}
    (h : (s.library.catalog.scan s.store root).outcome = .error fault) :
    s.perform (.scan root) =
      (⟨(s.library.catalog.scan s.store root).events, .error fault⟩, s) := by
  simp only [perform, settle, h]

/-- Another scan of the folder of the library is a scan like any other. -/
theorem perform_rescan (s : Session) : s.perform .rescan = s.perform (.scan s.library.root) := by
  cases hScan : (s.library.catalog.scan s.store s.library.root).outcome with
  | error fault =>
      rw [perform_scan_of_error hScan]
      simp only [perform, settle, Library.rescan, Traced.bind_of_error _ hScan]
  | ok found =>
      rw [perform_scan_of_ok hScan]
      simp only [perform, settle, Library.rescan, Traced.bind_of_ok _ hScan]
      simp

/-- What an operation does to the catalog. A scan that comes to its end adds what it has found, and
nothing else does anything to it. -/
theorem catalog_after (s : Session) (operation : Operation) :
    (s.after operation).library.catalog = s.library.catalog ∨
    ∃ root found, Finds found (s.library.catalog.listed s.store root) ∧
      (s.after operation).library.catalog = s.library.catalog.add found := by
  have hScan (root : Text) : (s.after (.scan root)).library.catalog = s.library.catalog ∨
      ∃ found, Finds found (s.library.catalog.listed s.store root) ∧
        (s.after (.scan root)).library.catalog = s.library.catalog.add found := by
    cases hRun : (s.library.catalog.scan s.store root).outcome with
    | error fault =>
        left
        rw [after, perform_scan_of_error hRun]
    | ok next =>
        rcases scan_cases s.library.catalog s.store root with
          ⟨-, earlier, path, others, -, hFault⟩ | ⟨-, ⟨e, -, hFault⟩ | ⟨-, found, hFound, hDone, -⟩⟩
        · rw [hFault] at hRun
          cases hRun
        · rw [hFault] at hRun
          cases hRun
        · right
          refine ⟨found, hFound, ?_⟩
          rw [after, perform_scan_of_ok hDone]
  cases operation with
  | scan root => exact (hScan root).imp_right fun h => ⟨root, h⟩
  | rescan =>
      rw [after, perform_rescan]
      exact (hScan s.library.root).imp_right fun h => ⟨s.library.root, h⟩
  | define key value => exact Or.inl (frame_settle Library.catalog fun _ _ => rfl)
  | loadGlobalBlock => exact Or.inl (frame_settle Library.catalog fun _ _ => rfl)
  | get _ | getText _ | insert _ _ | undefine _ | change _ => exact Or.inl rfl

theorem sound_afterAll (h : s.library.catalog.Sound) (operations : List Operation) :
    (s.afterAll operations).library.catalog.Sound := by
  induction operations generalizing s with
  | nil => exact h
  | cons operation rest ih =>
      apply ih (s := s.after operation)
      rcases s.catalog_after operation with hSame | ⟨root, found, hFound, hCatalog⟩
      · rw [hSame]
        exact h
      · rw [hCatalog]
        exact h.add hFound

theorem extension_afterAll (s : Session) (operations : List Operation) :
    (s.afterAll operations).library.catalog.extension = s.library.catalog.extension := by
  refine frame_afterAll (fun s => s.library.catalog.extension) (fun s operation _ => ?_) s
  rcases s.catalog_after operation with hSame | ⟨root, found, -, hCatalog⟩
  · rw [hSame]
  · rw [hCatalog]
    rfl

/-- Two different paths of the listing belong in the catalog under one name. -/
def Clashes (s : Session) (root : Text) : Prop :=
  ∃ a ∈ (s.store.list root).paths, ∃ b ∈ (s.store.list root).paths, ∃ name,
    s.library.catalog.Fits name a ∧ s.library.catalog.Fits name b ∧ a ≠ b

theorem displacements_ne_nil_iff :
    displacements [] (s.library.catalog.listed s.store root) ≠ [] ↔ s.Clashes root := by
  rw [ne_eq, displacements_eq_nil_iff, NamedApart]
  push Not
  constructor
  · rintro ⟨a, ha, b, hb, hName, hNe⟩
    obtain ⟨ha, hFitsA⟩ := mem_listed_iff.mp ha
    obtain ⟨hb, hFitsB⟩ := mem_listed_iff.mp hb
    exact ⟨a, ha, b, hb, _, hFitsA, hName ▸ hFitsB, hNe⟩
  · rintro ⟨a, ha, b, hb, name, hFitsA, hFitsB, hNe⟩
    have hName : Path.baseName a = Path.baseName b := hFitsA.2.trans hFitsB.2.symm
    refine ⟨a, mem_listed_iff.mpr ⟨ha, hFitsA.1, rfl⟩, b, mem_listed_iff.mpr ⟨hb, hFitsB.1, rfl⟩,
      hName, hNe⟩

/-- What a scan of the folder `root` comes to. -/
theorem perform_scan_cases (s : Session) (root : Text) :
    ((s.library.catalog.strict = true ∧ s.Clashes root) ∧ ∃ name a b,
      (s.perform (.scan root)).1.outcome = .error (.duplicateName name a b)) ∨
    (¬ (s.library.catalog.strict = true ∧ s.Clashes root) ∧
      ((∃ e, (s.store.list root).failure = some e ∧
          (s.perform (.scan root)).1.outcome = .error (.store e)) ∨
        ((s.store.list root).failure = none ∧ ∃ found,
          Finds found (s.library.catalog.listed s.store root) ∧
          (s.perform (.scan root)).1.outcome = .ok (.count found.size) ∧
          (s.perform (.scan root)).1.warnings =
            (displacements [] (s.library.catalog.listed s.store root)).map displacementRecord ∧
          (s.after (.scan root)).library.catalog = s.library.catalog.add found))) := by
  rcases scan_cases s.library.catalog s.store root with
    ⟨hStrict, earlier, path, others, hOther, hRun⟩ | ⟨hAdmitted, hRun⟩
  · refine Or.inl ⟨⟨hStrict, displacements_ne_nil_iff.mp (hOther ▸ List.cons_ne_nil _ _)⟩, ?_⟩
    rw [perform_scan_of_error (congrArg Traced.outcome hRun)]
    exact ⟨_, _, _, rfl⟩
  · right
    constructor
    · rintro ⟨hStrict, hClash⟩
      rcases hAdmitted with hLenient | hNone
      · exact Bool.false_ne_true (hLenient.symm.trans hStrict)
      · exact displacements_ne_nil_iff.mpr hClash hNone
    · rcases hRun with ⟨e, hFailure, hRun⟩ | ⟨hFailure, found, hFound, hDone, hWarnings⟩
      · rw [perform_scan_of_error hRun]
        exact Or.inl ⟨e, hFailure, rfl⟩
      · rw [after, perform_scan_of_ok hDone]
        exact Or.inr ⟨hFailure, found, hFound, rfl, hWarnings, rfl⟩

theorem after_scan_of_error {fault : Fault}
    (h : (s.perform (.scan root)).1.outcome = .error fault) : s.after (.scan root) = s := by
  cases hRun : (s.library.catalog.scan s.store root).outcome with
  | error other => rw [after, perform_scan_of_error hRun]
  | ok next =>
      rw [perform_scan_of_ok hRun] at h
      cases h

/-- What a scan of the folder `root` has done when it has come to its end with `answer`. -/
structure Scanned (s : Session) (root : Text) (answer : Answer) : Prop where
  latest : ∀ name path, s.library.catalog.Latest (s.store.list root).paths name path →
    (s.after (.scan root)).library.catalog.pathOf name = .ok path
  others : ∀ name,
    (∀ path ∈ (s.store.list root).paths, ¬ s.library.catalog.Fits name path) →
      (s.after (.scan root)).library.catalog.pathOf name = s.library.catalog.pathOf name
  count : ∃ names : List Text, names.Nodup ∧
    (∀ name, name ∈ names ↔ ∃ path ∈ (s.store.list root).paths, s.library.catalog.Fits name path) ∧
    answer = .count names.length
  /-- There is one warning for each path that takes the place of another one. -/
  warnings : (s.perform (.scan root)).1.warnings =
    (displacements [] (s.library.catalog.listed s.store root)).map displacementRecord

theorem scanned_of_ok {answer : Answer} (h : (s.perform (.scan root)).1.outcome = .ok answer) :
    s.Scanned root answer := by
  rcases s.perform_scan_cases root with
    ⟨-, name, a, b, hFault⟩ | ⟨-, ⟨e, -, hFault⟩ | ⟨-, found, hFound, hDone, hWarnings, hAfter⟩⟩
  · rw [hFault] at h
    cases h
  · rw [hFault] at h
    cases h
  · obtain rfl : answer = .count found.size := by
      rw [hDone] at h
      exact (Except.ok.inj h).symm
    constructor
    case latest =>
      intro name path hLatest
      rw [pathOf_eq_ok_iff, hAfter, find?_add hFound, latest_iff.mp hLatest, Option.some_or]
    case others =>
      intro name hNone
      have hLast : lastNamed? (s.library.catalog.listed s.store root) name = none := by
        apply lastNamed?_eq_none_iff.mpr
        rintro path hPath rfl
        obtain ⟨hMem, hFits⟩ := mem_listed_iff.mp hPath
        exact hNone path hMem hFits
      rw [pathOf_eq, pathOf_eq, hAfter, find?_add hFound, hLast, Option.none_or]
    case count =>
      obtain ⟨names, hNodup, hNames, hSize⟩ := exists_names hFound
      exact ⟨names, hNodup, hNames, congrArg Answer.count hSize⟩
    case warnings => exact hWarnings

/-- The law of a scan of the folder `root`. -/
structure ScansLast (s : Session) (root : Text) : Prop where
  /-- Only a listing that fails and a clash in a strict catalog stand in its way. -/
  succeeds : (∃ answer, (s.perform (.scan root)).1.outcome = .ok answer) ↔
    (s.store.list root).failure = none ∧ ¬ (s.library.catalog.strict = true ∧ s.Clashes root)
  scanned : ∀ answer, (s.perform (.scan root)).1.outcome = .ok answer → s.Scanned root answer
  refused : (∃ name a b, (s.perform (.scan root)).1.outcome = .error (.duplicateName name a b)) ↔
    s.library.catalog.strict = true ∧ s.Clashes root
  failed : ∀ fault, (s.perform (.scan root)).1.outcome = .error fault → s.after (.scan root) = s

/-- A scan binds each name to the last listed path that has it, and leaves the other names as they
were. A strict catalog refuses the listing exactly if two different paths clash. A scan that fails,
at whatever point of the listing, changes nothing. So after all sessions every name of a catalog
that has only been filled by scans leads to a path of its own. -/
theorem scan_last_wins (s : Session) (root : Text) :
    s.ScansLast root ∧ s.perform .rescan = s.perform (.scan s.library.root) ∧
    (s.library.catalog.Sound → ∀ operations,
      (s.afterAll operations).library.catalog.extension = s.library.catalog.extension ∧
      (s.afterAll operations).library.catalog.Sound ∧
      ∀ a b path, (s.afterAll operations).library.catalog.pathOf a = .ok path →
        (s.afterAll operations).library.catalog.pathOf b = .ok path → a = b) := by
  refine ⟨?_, s.perform_rescan, fun h operations => ?_⟩
  · constructor
    case succeeds =>
      rcases s.perform_scan_cases root with
        ⟨hRefused, name, a, b, hFault⟩ | ⟨hFree, ⟨e, hFailure, hFault⟩ | ⟨hFailure, found, -, hDone, -⟩⟩
      · simp [hFault, hRefused]
      · simp [hFault, hFailure]
      · simp [hDone, hFailure, hFree]
    case scanned => exact fun answer => scanned_of_ok
    case refused =>
      rcases s.perform_scan_cases root with
        ⟨hRefused, name, a, b, hFault⟩ | ⟨hFree, ⟨e, -, hFault⟩ | ⟨-, found, -, hDone, -⟩⟩
      · simp [hFault, hRefused]
      · simp [hFault, hFree]
      · simp [hDone, hFree]
    case failed => exact fun fault => after_scan_of_error
  · have hSound := sound_afterAll h operations
    exact ⟨s.extension_afterAll operations, hSound, fun a b path => hSound.name_unique⟩

/-- A session with two old files, and a listing in which two paths of one name take turns. -/
def crowded (strict : Bool) : Session where
  library := {
    root := "new".toList
    catalog := {
      strict
      paths := ⟨[("X.glsl".toList, "old/X.glsl".toList), ("Z.glsl".toList, "old/Z.glsl".toList)],
        by decide⟩ }
    macros := {} }
  store := Memory.store { listing := some ["new/a/X.glsl".toList, "new/b/X.glsl".toList,
    "new/b/X.glsl".toList, "new/Z.txt".toList, "new/a/X.glsl".toList, "new/Y.glsl".toList] }

theorem sound_crowded (strict : Bool) : (crowded strict).library.catalog.Sound := by
  intro name path h
  have hMem := Dictionary.get?_eq_some_iff.mp (pathOf_eq_ok_iff.mp h)
  have hEntry : (name, path) = ("X.glsl".toList, "old/X.glsl".toList) ∨
      (name, path) = ("Z.glsl".toList, "old/Z.glsl".toList) := by simpa [crowded] using hMem
  rcases hEntry with hEntry | hEntry
  · cases hEntry
    exact ⟨show ".glsl".toList <:+ "old/X.glsl".toList by decide, rfl⟩
  · cases hEntry
    exact ⟨show ".glsl".toList <:+ "old/Z.glsl".toList by decide, rfl⟩

/-- The lenient catalog takes the last path, with two warnings. The strict one takes nothing. -/
theorem scan_last_wins_crowded : (crowded false).library.catalog.Sound ∧
    ((crowded false).perform .rescan).1.outcome = .ok (.count 2) ∧
    ((crowded false).after .rescan).library.catalog.pathOf "X.glsl".toList =
      .ok "new/a/X.glsl".toList ∧
    ((crowded false).after .rescan).library.catalog.pathOf "Z.glsl".toList =
      .ok "old/Z.glsl".toList ∧
    ((crowded false).perform .rescan).1.warnings.length = 2 ∧
    ((crowded false).after .rescan).library.catalog.Sound ∧
    (crowded true).after (.scan "new".toList) = crowded true := by
  obtain ⟨⟨-, hScanned, -, -⟩, hRescan, hSound⟩ := scan_last_wins (crowded false) "new".toList
  obtain ⟨⟨-, -, hRefused, hFailed⟩, -, -⟩ := scan_last_wins (crowded true) "new".toList
  have hRescan : (crowded false).perform .rescan =
      (crowded false).perform (.scan "new".toList) := hRescan
  have hDone : ((crowded false).perform (.scan "new".toList)).1.outcome = .ok (.count 2) := rfl
  obtain ⟨hLatest, hOthers, -, hWarnings⟩ := hScanned _ hDone
  have hClash : (crowded true).Clashes "new".toList :=
    ⟨"new/a/X.glsl".toList, by decide, "new/b/X.glsl".toList, by decide, "X.glsl".toList,
      ⟨by decide, rfl⟩, ⟨by decide, rfl⟩, by decide⟩
  obtain ⟨name, a, b, hFault⟩ := hRefused.mpr ⟨rfl, hClash⟩
  rw [after, hRescan]
  refine ⟨sound_crowded false, hDone, hLatest _ _ ?_, hOthers _ ?_, ?_,
    (hSound (sound_crowded false) [.rescan]).2.1, hFailed _ hFault⟩
  · exact ⟨by decide, ["new/a/X.glsl".toList, "new/b/X.glsl".toList, "new/b/X.glsl".toList,
      "new/Z.txt".toList], ["new/Y.glsl".toList], rfl, by decide⟩
  · decide
  · rw [hWarnings]
    decide

end Session

end ShaderLibrary
