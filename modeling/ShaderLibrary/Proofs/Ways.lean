import Mathlib.Data.List.Basic
import ShaderLibrary.Path

/-! Ways through folders: the names that lead from a folder to a file below it. A way has a path, from
which it can be read off again, and ways have an order, in which the files of a folder come before
all that is in the folders inside. -/
namespace ShaderLibrary

namespace Text

variable {α : Type} {items others : List α} {key : α → Text}

/-- Items in ascending order of their keys. -/
def sortBy (key : α → Text) (items : List α) : List α :=
  items.mergeSort fun a b => notAfter (key a) (key b)

theorem notAfter_iff {a b : Text} : notAfter a b = true ↔ ¬ b < a := by
  rw [notAfter, Bool.not_eq_true', decide_eq_false_iff_not]

theorem notAfter_trans {a b c : Text} (hab : notAfter a b = true) (hbc : notAfter b c = true) :
    notAfter a c = true := by
  rw [notAfter_iff, List.not_lt] at *
  exact List.le_trans hab hbc

theorem notAfter_total (a b : Text) : (notAfter a b || notAfter b a) = true := by
  rw [Bool.or_eq_true, notAfter_iff, notAfter_iff, List.not_lt, List.not_lt]
  exact List.le_total a b

theorem perm_sortBy (key : α → Text) (items : List α) : (sortBy key items).Perm items :=
  List.mergeSort_perm _ _

theorem mem_sortBy {a : α} : a ∈ sortBy key items ↔ a ∈ items := (perm_sortBy key items).mem_iff

theorem sortBy_nil (key : α → Text) : sortBy key [] = [] := List.mergeSort_nil

theorem sortBy_singleton (key : α → Text) (a : α) : sortBy key [a] = [a] := List.mergeSort_singleton a

theorem sortBy_pair (key : α → Text) (a b : α) :
    sortBy key [a, b] = if notAfter (key a) (key b) then [a, b] else [b, a] := by
  simp [sortBy, List.mergeSort, List.MergeSort.Internal.splitInTwo, List.merge]

theorem sortBy_map {β : Type} (f : β → α) (items : List β) :
    sortBy key (items.map f) = (sortBy (fun b => key (f b)) items).map f :=
  (List.map_mergeSort (s := fun a b => notAfter (key a) (key b)) (f := f) fun _ _ _ _ => rfl).symm

/-- Different keys stand in strictly ascending order. -/
theorem pairwise_sortBy (h : (items.map key).Nodup) :
    (sortBy key items).Pairwise fun a b => key a < key b := by
  have hSorted : (sortBy key items).Pairwise fun a b => notAfter (key a) (key b) = true := by
    apply List.pairwise_mergeSort
    · intro a b c
      exact notAfter_trans
    · intro a b
      exact notAfter_total _ _
  have hNodup : (sortBy key items).Pairwise fun a b => key a ≠ key b := by
    have hKeys := ((perm_sortBy key items).map key).nodup_iff.mpr h
    exact List.pairwise_map.mp hKeys
  refine (hSorted.and hNodup).imp fun ⟨hLe, hNe⟩ => ?_
  rw [notAfter_iff, List.not_lt] at hLe
  by_contra hNot
  exact hNe (List.le_antisymm hLe (List.not_lt.mp hNot))

/-- The order in which items with different keys are handed in does not matter. -/
theorem sortBy_eq_of_perm (hPerm : items.Perm others) (h : (items.map key).Nodup) :
    sortBy key items = sortBy key others := by
  have hOthers : (others.map key).Nodup := (hPerm.map key).nodup_iff.mp h
  have hSame := (perm_sortBy key items).trans (hPerm.trans (perm_sortBy key others).symm)
  refine hSame.eq_of_pairwise (fun a b _ _ hab hba => ?_) (pairwise_sortBy h)
    (pairwise_sortBy hOthers)
  exact absurd hba (List.lt_asymm hab)

end Text

namespace Path

variable {base name : Text} {way other : List Text}

/-- A name that may stand in a folder. -/
def IsName (name : Text) : Prop := name ≠ [] ∧ '/' ∉ name

instance (name : Text) : Decidable (IsName name) := inferInstanceAs (Decidable (_ ∧ _))

/-- The path at the end of a way from the folder at `base`. -/
def along (base : Text) (way : List Text) : Text := way.foldl join base

/-- What the paths of all files below a folder start with. -/
def stem (base : Text) : Text := if base = [] ∨ base.getLast? = some '/' then base else base ++ ['/']

theorem join_eq (base name : Text) : join base name = stem base ++ name := by
  unfold join stem
  split
  · rfl
  · rw [List.append_assoc, List.singleton_append]

theorem stem_join (base : Text) (h : IsName name) : stem (join base name) = join base name ++ ['/'] := by
  obtain ⟨hSome, hSlash⟩ := h
  have hLast : (join base name).getLast? ≠ some '/' := by
    rw [join_eq, List.getLast?_append_of_ne_nil _ hSome]
    exact fun hEnd => hSlash (List.mem_of_getLast? hEnd)
  have hNonempty : join base name ≠ [] := by
    rw [join_eq]
    exact List.append_ne_nil_of_right_ne_nil _ hSome
  rw [stem, if_neg (not_or.mpr ⟨hNonempty, hLast⟩)]

/-- The names on a way stand in its path with slashes between them. -/
theorem along_eq (base : Text) (hWay : way ≠ []) (h : ∀ name ∈ way, IsName name) :
    along base way = stem base ++ ['/'].intercalate way := by
  induction way generalizing base with
  | nil => exact absurd rfl hWay
  | cons name rest ih =>
      rw [List.forall_mem_cons] at h
      cases rest with
      | nil => simp [along, join_eq]
      | cons second others =>
          have hRest := ih (join base name) (List.cons_ne_nil _ _) h.2
          calc
            along base (name :: second :: others) = along (join base name) (second :: others) := rfl
            _ = stem base ++ name ++ ['/'] ++ ['/'].intercalate (second :: others) := by
              rw [hRest, stem_join base h.1, join_eq]
            _ = stem base ++ ['/'].intercalate (name :: second :: others) := by
              simp [List.intercalate]

/-- Different ways from a folder have different paths. -/
theorem along_inj (base : Text) (hWay : way ≠ []) (h : ∀ name ∈ way, IsName name)
    (hOther : other ≠ []) (hNames : ∀ name ∈ other, IsName name)
    (hSame : along base way = along base other) : way = other := by
  rw [along_eq base hWay h, along_eq base hOther hNames, List.append_cancel_left_eq] at hSame
  rw [← List.splitOn_intercalate '/' (fun name hName => (h name hName).2) hWay, hSame,
    List.splitOn_intercalate '/' (fun name hName => (hNames name hName).2) hOther]

theorem baseName_join (base : Text) (h : IsName name) : baseName (join base name) = name := by
  have hName : ∀ c ∈ name.reverse, (c != '/') = true :=
    fun c hc => bne_iff_ne.mpr fun hSame => h.2 (hSame ▸ List.mem_reverse.mp hc)
  -- what is in front of the name is nothing, or it ends in a slash
  have hStem : (stem base).reverse.takeWhile (· != '/') = [] := by
    rcases List.eq_nil_or_concat base with rfl | ⟨front, last, rfl⟩
    · rfl
    · by_cases hSlash : last = '/' <;> simp [stem, hSlash]
  rw [baseName, join_eq, List.reverse_append, List.takeWhile_append_of_pos hName, hStem,
    List.append_nil, List.reverse_reverse]

/-- The bare name of a file is the last one on the way to it. -/
theorem baseName_along (base : Text) (h : ∀ name ∈ way, IsName name)
    (hName : way.getLast? = some name) : baseName (along base way) = name := by
  obtain ⟨front, rfl⟩ := List.getLast?_eq_some_iff.mp hName
  rw [along, List.foldl_append]
  exact baseName_join _ (h name (by simp))

/-- The first way is listed before the second one. A file of a folder comes before all files of the
folders inside; two files come in the order of their names, and so do two folders with all that is
in them. -/
inductive Precedes : List Text → List Text → Prop where
  | files {a b : Text} (hNames : a < b) : Precedes [a] [b]
  | fileFirst {a b c : Text} {way : List Text} : Precedes [a] (b :: c :: way)
  | folders {a b c d : Text} {way other : List Text} (hNames : a < b) :
      Precedes (a :: c :: way) (b :: d :: other)
  | within {a : Text} {way other : List Text} (hInside : Precedes way other) :
      Precedes (a :: way) (a :: other)

theorem Precedes.asymm (h : Precedes way other) : ¬ Precedes other way := by
  induction h with
  | files hNames =>
      rintro (hOther | _ | _ | hInside)
      · exact List.lt_asymm hNames hOther
      · cases hInside
  | fileFirst =>
      rintro (_ | _ | _ | hInside)
      cases hInside
  | folders hNames =>
      rintro (_ | _ | hOther | hInside)
      · exact List.lt_asymm hNames hOther
      · exact List.lt_irrefl _ hNames
  | within hInside ih =>
      rintro (hNames | _ | hNames | hBack)
      · cases hInside
      · cases hInside
      · exact List.lt_irrefl _ hNames
      · exact ih hBack

theorem Precedes.ne (h : Precedes way other) : way ≠ other := by
  rintro rfl
  exact h.asymm h

end Path

end ShaderLibrary
