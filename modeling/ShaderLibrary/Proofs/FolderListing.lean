import Mathlib.Tactic.FinCases
import ShaderLibrary.Proofs.Scan
import ShaderLibrary.Proofs.Trees

/-! Listings of folders. The list of the files below a folder has each of them once, in an order of
their ways, in whatever order the host reports what is in a folder. So a scan takes the same file of
each name on every host. -/
namespace ShaderLibrary

namespace Folder

variable {f g inside : Folder} {base name : Text} {way paths : List Text}

/-- The names of the files in a folder, in the order in which its host hands them out. -/
def fileNames : Folder → List Text
  | empty => []
  | file name _ rest => name :: rest.fileNames
  | folder _ _ rest => rest.fileNames

/-- The folders in a folder with their names, in the order in which its host hands them out. -/
def folders : Folder → List (Text × Folder)
  | empty => []
  | file _ _ rest => rest.folders
  | folder name inside rest => (name, inside) :: rest.folders

/-- There is a file at the end of this way from the folder. -/
inductive Holds : Folder → List Text → Prop where
  | own {f : Folder} {name : Text} {content : List UInt8}
      (hFile : f.find? name = some (.file content)) : Holds f [name]
  | inner {f inside : Folder} {name : Text} {way : List Text}
      (hFolder : f.find? name = some (.folder inside)) (hInside : Holds inside way) :
      Holds f (name :: way)

/-- A property of folders holds of all of them if each has it as soon as the folders in it have
it. -/
theorem induction_folders {P : Folder → Prop}
    (step : ∀ f : Folder, (∀ item ∈ f.folders, P item.2) → P f) (f : Folder) : P f := by
  have hBoth : P f ∧ ∀ item ∈ f.folders, P item.2 := by
    induction f with
    | empty =>
        have hNone : ∀ item ∈ empty.folders, P item.2 := List.forall_mem_nil _
        exact ⟨step empty hNone, hNone⟩
    | file name content rest ih =>
        have hRest : ∀ item ∈ (file name content rest).folders, P item.2 := ih.2
        exact ⟨step _ hRest, hRest⟩
    | folder name inside rest ihInside ihRest =>
        have hAll : ∀ item ∈ (folder name inside rest).folders, P item.2 :=
          List.forall_mem_cons.mpr ⟨ihInside.1, ihRest.2⟩
        exact ⟨step _ hAll, hAll⟩
  exact hBoth.1

/-- The listing of a folder with its name, which lies in the folder at the path `base`. -/
def listingIn (base : Text) (item : Text × Folder) : List Text :=
  item.2.listing (Path.join base item.1)

theorem survey_eq (base : Text) (f : Folder) :
    f.survey base = ⟨f.fileNames, f.folders.map fun item => (item.1, listingIn base item)⟩ := by
  induction f with
  | empty => rfl
  | file name content rest ih => rw [survey, ih]; rfl
  | folder name inside rest _ ih => rw [survey, ih]; rfl

/-- The rule of the listing: the files of the folder by name, and then the folders by name, each
with its own listing. -/
theorem listing_eq (base : Text) (f : Folder) : f.listing base =
    (Text.sortBy id f.fileNames).map (Path.join base) ++
      (Text.sortBy Prod.fst f.folders).flatMap (listingIn base) := by
  have hFolders : (f.folders.map fun item => (item.1, listingIn base item)).mergeSort
      (fun a b => Text.notAfter a.1 b.1) =
      (Text.sortBy Prod.fst f.folders).map fun item => (item.1, listingIn base item) :=
    Text.sortBy_map _ _
  rw [listing, survey_eq, Survey.paths, hFolders, List.flatMap_map]
  rfl

/-- The ways to files with these names and, behind the name of each folder, to those in it. -/
def arrange (own : List Text) (inner : List (Text × List (List Text))) : List (List Text) :=
  (Text.sortBy id own).map ([·]) ++
    (Text.sortBy Prod.fst inner).flatMap fun item => item.2.map (item.1 :: ·)

/-- The ways to the files in the folders of a folder, from each of these folders. -/
def innerWays : Folder → List (Text × List (List Text))
  | empty => []
  | file _ _ rest => rest.innerWays
  | folder name inside rest => (name, arrange inside.fileNames inside.innerWays) :: rest.innerWays

/-- The ways to all files below a folder, in the order of its listing. -/
def ways (f : Folder) : List (List Text) := arrange f.fileNames f.innerWays

theorem innerWays_eq (f : Folder) : f.innerWays = f.folders.map fun item => (item.1, item.2.ways) := by
  induction f with
  | empty => rfl
  | file name content rest ih => exact ih
  | folder name inside rest _ ih => rw [innerWays, ih]; rfl

theorem ways_eq (f : Folder) : f.ways = (Text.sortBy id f.fileNames).map ([·]) ++
    (Text.sortBy Prod.fst f.folders).flatMap fun item => item.2.ways.map (item.1 :: ·) := by
  rw [ways, arrange, innerWays_eq, Text.sortBy_map, List.flatMap_map]

theorem listing_eq_map_along (base : Text) (f : Folder) :
    f.listing base = f.ways.map (Path.along base) := by
  induction f using induction_folders generalizing base with
  | step f ih =>
      rw [listing_eq, ways_eq, List.map_append, List.map_map, List.map_flatMap]
      congr 1
      refine List.flatMap_congr fun item hItem => ?_
      have hInside := ih item (Text.mem_sortBy.mp hItem) (Path.join base item.1)
      rw [listingIn, hInside, List.map_map]
      rfl

theorem mem_fileNames_iff (h : f.Proper) :
    name ∈ f.fileNames ↔ ∃ content, f.find? name = some (.file content) := by
  induction f with
  | empty => simp [fileNames, find?]
  | file other content rest ih =>
      rw [fileNames, List.mem_cons, find?, ih h.2.2]
      by_cases hSame : other = name
      · simp [hSame]
      · simp [hSame, Ne.symm hSame]
  | folder other inside rest _ ih =>
      rw [fileNames, find?, ih h.2.2.2]
      by_cases hSame : other = name
      · subst hSame
        simp [h.2.1]
      · simp [hSame]

theorem mem_folders_iff (h : f.Proper) :
    (name, g) ∈ f.folders ↔ f.find? name = some (.folder g) := by
  induction f with
  | empty => simp [folders, find?]
  | file other content rest ih =>
      rw [folders, find?, ih h.2.2]
      by_cases hSame : other = name
      · subst hSame
        simp [h.2.1]
      · simp [hSame]
  | folder other inside rest _ ih =>
      rw [folders, List.mem_cons, find?, ih h.2.2.2]
      by_cases hSame : other = name
      · subst hSame
        simp [h.2.1, eq_comm]
      · simp [hSame, Ne.symm hSame]

theorem Proper.of_mem_folders (h : f.Proper) {item : Text × Folder} (hItem : item ∈ f.folders) :
    item.2.Proper :=
  (h.of_find? ((mem_folders_iff h).mp hItem)).2

theorem nodup_fileNames (h : f.Proper) : f.fileNames.Nodup := by
  induction f with
  | empty => exact .nil
  | file name content rest ih =>
      refine List.nodup_cons.mpr ⟨fun hAgain => ?_, ih h.2.2⟩
      obtain ⟨other, hFile⟩ := (mem_fileNames_iff h.2.2).mp hAgain
      rw [h.2.1] at hFile
      cases hFile
  | folder name inside rest _ ih => exact ih h.2.2.2

theorem nodup_folders (h : f.Proper) : (f.folders.map Prod.fst).Nodup := by
  induction f with
  | empty => exact .nil
  | file name content rest ih => exact ih h.2.2
  | folder name inside rest _ ih =>
      refine List.nodup_cons.mpr ⟨fun hAgain => ?_, ih h.2.2.2⟩
      obtain ⟨⟨_, other⟩, hItem, rfl⟩ := List.mem_map.mp hAgain
      have hFolder := (mem_folders_iff h.2.2.2).mp hItem
      rw [h.2.1] at hFolder
      cases hFolder

theorem mem_ways_iff (h : f.Proper) : way ∈ f.ways ↔ f.Holds way := by
  induction f using induction_folders generalizing way with
  | step f ih =>
      rw [ways_eq]
      simp only [List.mem_append, List.mem_map, List.mem_flatMap,
        Text.mem_sortBy, mem_fileNames_iff h]
      constructor
      · rintro (⟨name, ⟨content, hFile⟩, rfl⟩ | ⟨⟨name, inside⟩, hItem, way, hWay, rfl⟩)
        · exact .own hFile
        · have hFolder := (mem_folders_iff h).mp hItem
          exact .inner hFolder ((ih _ hItem (h.of_mem_folders hItem)).mp hWay)
      · rintro (⟨hFile⟩ | ⟨hFolder, hInside⟩)
        · exact Or.inl ⟨_, ⟨_, hFile⟩, rfl⟩
        · have hItem := (mem_folders_iff h).mpr hFolder
          exact Or.inr ⟨_, hItem, _, (ih _ hItem (h.of_mem_folders hItem)).mpr hInside, rfl⟩

theorem Holds.ne_nil (h : f.Holds way) : way ≠ [] := by
  cases h <;> exact List.cons_ne_nil _ _

theorem Holds.isName (h : f.Holds way) (hProper : f.Proper) : ∀ name ∈ way, Path.IsName name := by
  induction h with
  | own hFile => exact List.forall_mem_singleton.mpr (hProper.of_find? hFile).1
  | inner hFolder _ ih =>
      exact List.forall_mem_cons.mpr
        ⟨(hProper.of_find? hFolder).1, ih (hProper.of_find? hFolder).2⟩

theorem exists_cons_of_mem_ways (h : way ∈ f.ways) : ∃ name rest, way = name :: rest := by
  rw [ways_eq] at h
  rcases List.mem_append.mp h with hOwn | hInner
  · obtain ⟨name, -, rfl⟩ := List.mem_map.mp hOwn
    exact ⟨name, [], rfl⟩
  · obtain ⟨item, -, hWay⟩ := List.mem_flatMap.mp hInner
    obtain ⟨rest, -, rfl⟩ := List.mem_map.mp hWay
    exact ⟨item.1, rest, rfl⟩

/-- The ways stand in their order, so each stands once. -/
theorem pairwise_ways (h : f.Proper) : f.ways.Pairwise Path.Precedes := by
  induction f using induction_folders with
  | step f ih =>
      have hFiles : (Text.sortBy id f.fileNames).Pairwise (· < ·) :=
        Text.pairwise_sortBy (by simpa using nodup_fileNames h)
      have hFolders := Text.pairwise_sortBy (nodup_folders h)
      rw [ways_eq, List.pairwise_append, List.pairwise_map, List.pairwise_flatMap]
      refine ⟨hFiles.imp .files, ⟨?_, hFolders.imp fun hNames => ?_⟩, ?_⟩
      · rintro ⟨name, inside⟩ hItem
        have hItem := Text.mem_sortBy.mp hItem
        have hInside := ih _ hItem (h.of_mem_folders hItem)
        exact List.pairwise_map.mpr (hInside.imp .within)
      · simp only [List.forall_mem_map]
        intro way hWay other hOther
        obtain ⟨c, rest, rfl⟩ := exists_cons_of_mem_ways hWay
        obtain ⟨d, others, rfl⟩ := exists_cons_of_mem_ways hOther
        exact .folders hNames
      · intro own hOwn way hWay
        obtain ⟨name, -, rfl⟩ := List.mem_map.mp hOwn
        obtain ⟨item, -, hWay⟩ := List.mem_flatMap.mp hWay
        obtain ⟨rest, hRest, rfl⟩ := List.mem_map.mp hWay
        obtain ⟨c, others, rfl⟩ := exists_cons_of_mem_ways hRest
        exact .fileFirst

theorem nodup_ways (h : f.Proper) : f.ways.Nodup := (pairwise_ways h).imp Path.Precedes.ne

theorem nodup_paths (h : f.Proper) (base : Text) : (f.ways.map (Path.along base)).Nodup := by
  refine (nodup_ways h).map_on fun way hWay other hOther hSame => ?_
  have hHolds := (mem_ways_iff h).mp hWay
  have hOther := (mem_ways_iff h).mp hOther
  exact Path.along_inj base hHolds.ne_nil (hHolds.isName h) hOther.ne_nil (hOther.isName h) hSame

/-- There is only one way to list the same files in this order. -/
theorem ways_eq_of_holds_iff (hf : f.Proper) (hg : g.Proper)
    (h : ∀ way, f.Holds way ↔ g.Holds way) : f.ways = g.ways := by
  have hPerm : f.ways.Perm g.ways := (List.perm_ext_iff_of_nodup (nodup_ways hf) (nodup_ways hg)).mpr
    fun way => by rw [mem_ways_iff hf, mem_ways_iff hg, h way]
  exact hPerm.eq_of_pairwise (fun _ _ _ _ hBefore hBack => absurd hBack hBefore.asymm)
    (pairwise_ways hf) (pairwise_ways hg)

mutual

/-- A walk through the folder at the path `base`, from the top down. The host reports the files and
the folders in it in any order. The paths of the files are yielded by name, and the walk goes on
into the folders as they have been left, which is by name too. -/
inductive Walks : Text → Folder → List Text → Prop where
  | visit {base : Text} {f : Folder} {files : List Text} {dirs : List (Text × Folder)}
      {below : List Text} (hFiles : files.Perm f.fileNames) (hFolders : dirs.Perm f.folders)
      (hBelow : WalksEach base (Text.sortBy Prod.fst dirs) below) :
      Walks base f ((Text.sortBy id files).map (Path.join base) ++ below)

/-- Walks through folders one after the other, all of which lie in the folder at the path `base`. -/
inductive WalksEach : Text → List (Text × Folder) → List Text → Prop where
  | done {base : Text} : WalksEach base [] []
  | next {base name : Text} {inside : Folder} {rest : List (Text × Folder)} {here below : List Text}
      (hHere : Walks (Path.join base name) inside here) (hRest : WalksEach base rest below) :
      WalksEach base ((name, inside) :: rest) (here ++ below)

end

theorem walksEach_iff {items : List (Text × Folder)}
    (h : ∀ item ∈ items, ∀ paths, Walks (Path.join base item.1) item.2 paths ↔
      paths = listingIn base item) :
    WalksEach base items paths ↔ paths = items.flatMap (listingIn base) := by
  induction items generalizing paths with
  | nil =>
      constructor
      · rintro ⟨⟩
        rfl
      · rintro rfl
        exact .done
  | cons item rest ih =>
      rw [List.forall_mem_cons] at h
      constructor
      · rintro (_ | ⟨hHere, hRest⟩)
        rw [(h.1 _).mp hHere, (ih h.2).mp hRest]
        rfl
      · rintro rfl
        exact .next ((h.1 _).mpr rfl) ((ih h.2).mpr rfl)

/-- Every walk through a tree yields its listing, in whatever orders the host reports what is in its
folders. -/
theorem walks_iff (h : f.Proper) : Walks base f paths ↔ paths = f.listing base := by
  induction f using induction_folders generalizing base paths with
  | step f ih =>
      have hEach {dirs : List (Text × Folder)} (hFolders : dirs.Perm f.folders) (below : List Text) :
          WalksEach base (Text.sortBy Prod.fst dirs) below ↔
            below = (Text.sortBy Prod.fst f.folders).flatMap (listingIn base) := by
        rw [Text.sortBy_eq_of_perm hFolders ((hFolders.map _).nodup_iff.mpr (nodup_folders h))]
        refine walksEach_iff fun item hItem paths => ?_
        have hItem := Text.mem_sortBy.mp hItem
        exact ih item hItem (h.of_mem_folders hItem)
      have hSort {files : List Text} (hFiles : files.Perm f.fileNames) :
          Text.sortBy id files = Text.sortBy id f.fileNames :=
        Text.sortBy_eq_of_perm hFiles
          (by rw [List.map_id]; exact hFiles.nodup_iff.mpr (nodup_fileNames h))
      rw [listing_eq]
      constructor
      · rintro ⟨hFiles, hFolders, hBelow⟩
        rw [hSort hFiles, (hEach hFolders _).mp hBelow]
      · rintro rfl
        exact .visit (.refl _) (.refl _) ((hEach (.refl _) _).mpr rfl)

/-- What is known of the list of the files below the folder `f` at the path `base`. -/
structure Canonical (base : Text) (f : Folder) : Prop where
  /-- It is what every walk yields. -/
  walks : ∀ paths, Walks base f paths ↔ paths = f.listing base
  listing_eq : f.listing base = f.ways.map (Path.along base)
  complete : ∀ way, way ∈ f.ways ↔ f.Holds way
  ordered : f.ways.Pairwise Path.Precedes
  once : (f.listing base).Nodup
  /-- It depends on nothing but the files that there are. -/
  determined : ∀ g : Folder, g.Proper → (∀ way, g.Holds way ↔ f.Holds way) →
    g.listing base = f.listing base

theorem canonical (h : f.Proper) (base : Text) : Canonical base f where
  walks _ := walks_iff h
  listing_eq := listing_eq_map_along base f
  complete _ := mem_ways_iff h
  ordered := pairwise_ways h
  once := by
    rw [listing_eq_map_along]
    exact nodup_paths h base
  determined g hg hSame := by
    rw [listing_eq_map_along, listing_eq_map_along, ways_eq_of_holds_iff hg h hSame]

variable {c : Catalog} {store : Store}

/-- The file at the end of the way belongs in the catalog, under this bare name. -/
structure Offers (f : Folder) (c : Catalog) (base name : Text) (way : List Text) : Prop where
  holds : f.Holds way
  admitted : c.extension <:+ Path.along base way
  named : way.getLast? = some name

/-- Of the files that belong in the catalog under this bare name, all others come before this one. -/
structure OffersLast (f : Folder) (c : Catalog) (base name : Text) (way : List Text) : Prop where
  offers : f.Offers c base name way
  last : ∀ other, f.Offers c base name other → other = way ∨ Path.Precedes other way

theorem offers_iff (h : f.Proper) :
    f.Offers c base name way ↔ way ∈ f.ways ∧ c.Fits name (Path.along base way) := by
  constructor
  · rintro ⟨hHolds, hAdmitted, hNamed⟩
    exact ⟨(mem_ways_iff h).mpr hHolds, hAdmitted, Path.baseName_along base (hHolds.isName h) hNamed⟩
  · rintro ⟨hWay, hAdmitted, hName⟩
    have hHolds := (mem_ways_iff h).mp hWay
    have hLast := List.getLast?_eq_some_getLast hHolds.ne_nil
    rw [Path.baseName_along base (hHolds.isName h) hLast] at hName
    exact ⟨hHolds, hAdmitted, hName ▸ hLast⟩

/-- In an ordered list something with a property has nothing with it behind it. -/
theorem exists_last {R : List Text → List Text → Prop} {p : List Text → Prop}
    {items : List (List Text)} (hOrdered : items.Pairwise R) (hMem : way ∈ items) (hWay : p way) :
    ∃ last ∈ items, p last ∧ ∀ other ∈ items, p other → other = last ∨ R other last := by
  induction items generalizing way with
  | nil => cases hMem
  | cons first rest ih =>
      obtain ⟨hFirst, hRest⟩ := List.pairwise_cons.mp hOrdered
      by_cases hLater : ∃ later ∈ rest, p later
      · obtain ⟨later, hLaterMem, hp⟩ := hLater
        obtain ⟨last, hLastMem, hLast, hOthers⟩ := ih hRest hLaterMem hp
        refine ⟨last, List.mem_cons_of_mem _ hLastMem, hLast, ?_⟩
        exact List.forall_mem_cons.mpr ⟨fun _ => Or.inr (hFirst last hLastMem), hOthers⟩
      · have hSame : way = first :=
          (List.mem_cons.mp hMem).resolve_right fun hIn => hLater ⟨way, hIn, hWay⟩
        subst hSame
        refine ⟨way, List.mem_cons_self, hWay, List.forall_mem_cons.mpr ⟨fun _ => Or.inl rfl, ?_⟩⟩
        exact fun other hOther hp => absurd ⟨other, hOther, hp⟩ hLater

theorem existsUnique_offersLast (h : f.Proper) (hOffers : f.Offers c base name way) :
    ∃! last, f.OffersLast c base name last := by
  obtain ⟨hMem, hFits⟩ := (offers_iff h).mp hOffers
  obtain ⟨last, hLastMem, hLast, hOthers⟩ := exists_last
    (p := fun way => c.Fits name (Path.along base way)) (pairwise_ways h) hMem hFits
  refine ⟨last, ⟨(offers_iff h).mpr ⟨hLastMem, hLast⟩, fun other hOther => ?_⟩, fun other hOther => ?_⟩
  · obtain ⟨hOtherMem, hOtherFits⟩ := (offers_iff h).mp hOther
    exact hOthers other hOtherMem hOtherFits
  · obtain ⟨hOtherMem, hOtherFits⟩ := (offers_iff h).mp hOther.offers
    rcases hOthers other hOtherMem hOtherFits with hSame | hBefore
    · exact hSame
    · rcases hOther.last last ((offers_iff h).mpr ⟨hLastMem, hLast⟩) with hSame | hBack
      · exact hSame.symm
      · exact absurd hBack hBefore.asymm

/-- The last file of a name in the order of the ways is the last one in the list. -/
theorem latest_of_offersLast (h : f.Proper) (hLast : f.OffersLast c base name way) :
    c.Latest (f.listing base) name (Path.along base way) := by
  obtain ⟨hMem, hFits⟩ := (offers_iff h).mp hLast.offers
  obtain ⟨before, after, hSplit⟩ := List.append_of_mem hMem
  refine ⟨hFits, before.map (Path.along base), after.map (Path.along base), ?_, ?_⟩
  · rw [listing_eq_map_along, hSplit, List.map_append, List.map_cons]
  · simp only [List.forall_mem_map]
    intro later hLater hLaterFits
    have hOrdered := pairwise_ways h
    rw [hSplit, List.pairwise_append, List.pairwise_cons] at hOrdered
    have hBehind : Path.Precedes way later := hOrdered.2.1.1 later hLater
    have hLaterMem : later ∈ f.ways := by
      rw [hSplit]
      exact List.mem_append_right _ (List.mem_cons_of_mem _ hLater)
    rcases hLast.last later ((offers_iff h).mpr ⟨hLaterMem, hLaterFits⟩) with hSame | hBefore
    · exact hBehind.ne hSame.symm
    · exact hBehind.asymm hBefore

end Folder

open Folder

/-- The store lists the folder `f` at the path `root` by a walk through it, in some orders of its
host. -/
def Store.Walked (store : Store) (root : Text) (f : Folder) : Prop :=
  ∃ paths, Walks root f paths ∧ store.list root = ⟨paths, none⟩

namespace Catalog

variable {c : Catalog} {store : Store} {root : Text} {f : Folder}

/-- What a scan of the folder `f` at the path `root` takes. -/
structure TakesLast (c : Catalog) (store : Store) (root : Text) (f : Folder) : Prop where
  /-- The orders of the host do not matter. -/
  same : ∀ other : Store, other.Walked root f → c.scan other root = c.scan store root
  succeeds : c.strict = false → ∃ found, (c.scan store root).outcome = .ok found
  offered : ∀ name way, f.Offers c root name way → ∃! last, f.OffersLast c root name last
  last : ∀ next count, (c.scan store root).outcome = .ok (next, count) →
    ∀ name way, f.OffersLast c root name way → next.pathOf name = .ok (Path.along root way)

theorem takesLast (h : f.Proper) (hWalked : store.Walked root f) : c.TakesLast store root f := by
  have hList {store : Store} (hWalked : store.Walked root f) :
      store.list root = ⟨f.listing root, none⟩ := by
    obtain ⟨paths, hPaths, hList⟩ := hWalked
    rw [hList, (walks_iff h).mp hPaths]
  have hHere := hList hWalked
  constructor
  case same => exact fun other hOther => scan_congr ((hList hOther).trans hHere.symm)
  case offered => exact fun name way => existsUnique_offersLast h
  case succeeds =>
    intro hLenient
    rcases scan_cases c store root with ⟨hStrict, -⟩ | ⟨-, ⟨e, hFailure, -⟩ | ⟨-, found, -, hDone, -⟩⟩
    · rw [hLenient] at hStrict
      cases hStrict
    · rw [hHere] at hFailure
      cases hFailure
    · exact ⟨_, hDone⟩
  case last =>
    intro next count hNext name way hLast
    rcases scan_cases c store root with
      ⟨-, earlier, path, others, -, hFault⟩ | ⟨-, ⟨e, -, hFault⟩ | ⟨-, found, hFound, hDone, -⟩⟩
    · rw [hFault] at hNext
      cases hNext
    · rw [hFault] at hNext
      cases hNext
    · rw [hDone] at hNext
      cases hNext
      have hLatest := latest_of_offersLast h hLast
      have hPaths : (store.list root).paths = f.listing root := congrArg Listing.paths hHere
      rw [← hPaths] at hLatest
      rw [pathOf_eq_ok_iff, find?_add hFound, latest_iff.mp hLatest, Option.some_or]

end Catalog

namespace Disk

variable {d : Disk} {inside : Folder} {root : Text}

theorem list_of_find (h : d.find root = .ok (.folder inside)) :
    d.list root = ⟨(inside.listing root).filter isReached, none⟩ := by
  rw [list, h]

/-- A folder of a disk is listed with all files below it, each once, in the order of their ways: the
files of a folder by name, and then those in the folders inside, folder by folder, by name. Every
walk through the folder yields this list, in whatever orders the host reports what is in folders,
and so does the disk if it can open each of them. A scan of such a list takes the last file of each
name in that order. -/
theorem listing_canonical (hTree : d.root.Proper) (hRoot : d.find root = .ok (.folder inside)) :
    Canonical root inside ∧
    d.list root = ⟨(inside.listing root).filter isReached, none⟩ ∧
    ((∀ way, inside.Holds way → isReached (Path.along root way) = true) → d.store.Walked root inside) ∧
    ∀ (c : Catalog) (store : Store), store.Walked root inside → c.TakesLast store root inside := by
  have hProper := proper_of_find hTree hRoot
  refine ⟨canonical hProper root, list_of_find hRoot, fun hReached => ?_, fun c store =>
    Catalog.takesLast hProper⟩
  refine ⟨inside.listing root, (walks_iff hProper).mpr rfl, (list_of_find hRoot).trans ?_⟩
  rw [List.filter_eq_self.mpr fun path hPath => ?_]
  rw [listing_eq_map_along] at hPath
  obtain ⟨way, hWay, rfl⟩ := List.mem_map.mp hPath
  exact hReached way ((mem_ways_iff hProper).mp hWay)

/-- A folder with three files of one name, in folders whose paths have another order than their
names. -/
def lit : Folder :=
  .folder "a!".toList (.file "Lit.glsl".toList [] .empty)
    (.file "b.txt".toList []
      (.folder "a".toList (.file "x.glsl".toList [] (.file "Lit.glsl".toList [] .empty))
        (.file "Lit.glsl".toList [] .empty)))

/-- A disk with only that folder. -/
def litDisk : Disk where
  root := .folder "shaders".toList lit .empty

/-- The ways to its files. -/
def litWays : List (List Text) :=
  [["Lit.glsl".toList], ["b.txt".toList], ["a".toList, "Lit.glsl".toList],
    ["a".toList, "x.glsl".toList], ["a!".toList, "Lit.glsl".toList]]

theorem ways_lit : lit.ways = litWays := by
  simp only [lit, ways, arrange, fileNames, innerWays, Text.sortBy_nil, Text.sortBy_singleton,
    Text.sortBy_pair]
  rfl

theorem listing_canonical_lit :
    litDisk.root.Proper ∧ litDisk.find "shaders".toList = .ok (.folder lit) ∧
    litDisk.store.Walked "shaders".toList lit ∧
    litDisk.list "shaders".toList = ⟨["shaders/Lit.glsl".toList, "shaders/b.txt".toList,
      "shaders/a/Lit.glsl".toList, "shaders/a/x.glsl".toList, "shaders/a!/Lit.glsl".toList], none⟩ ∧
    ∃ next count, (Catalog.scan {} litDisk.store "shaders".toList).outcome = .ok (next, count) ∧
      next.pathOf "Lit.glsl".toList = .ok "shaders/a!/Lit.glsl".toList := by
  have hTree : litDisk.root.Proper := by decide
  have hRoot : litDisk.find "shaders".toList = .ok (.folder lit) := rfl
  obtain ⟨hCanonical, hList, hWalked, hTakes⟩ := listing_canonical hTree hRoot
  have hWays (way : List Text) : lit.Holds way ↔ way ∈ litWays := by
    rw [← hCanonical.complete, ways_lit]
  have hStore : litDisk.store.Walked "shaders".toList lit := by
    refine hWalked fun way hWay => ?_
    have hMem := (hWays way).mp hWay
    fin_cases hMem <;> rfl
  have hLast : lit.OffersLast {} "shaders".toList "Lit.glsl".toList
      ["a!".toList, "Lit.glsl".toList] := by
    refine ⟨⟨(hWays _).mpr (by decide), by decide, rfl⟩, ?_⟩
    rintro other ⟨hOther, hAdmitted, hNamed⟩
    have hMem := (hWays other).mp hOther
    fin_cases hMem
    · exact Or.inr .fileFirst
    · exact absurd hNamed (by decide)
    · exact Or.inr (.folders (by decide))
    · exact absurd hNamed (by decide)
    · exact Or.inl rfl
  obtain ⟨⟨next, count⟩, hNext⟩ := (hTakes {} litDisk.store hStore).succeeds rfl
  refine ⟨hTree, hRoot, hStore, ?_, next, count, hNext, ?_⟩
  · rw [hList, hCanonical.listing_eq, ways_lit]
    rfl
  · exact (hTakes {} litDisk.store hStore).last next count hNext _ _ hLast

end Disk

end ShaderLibrary
