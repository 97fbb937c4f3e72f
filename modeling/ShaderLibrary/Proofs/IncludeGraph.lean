import Mathlib.Logic.Relation
import ShaderLibrary.Inclusion
import ShaderLibrary.Proofs.Trace

/-! The include graph of an environment, said without an expansion: which file an
include line leads to, which files include which, and what occurs below a line. -/
namespace ShaderLibrary.Environment

open Relation

variable {env : Environment} {line p q r : Text} {lines : List Text}

/-- The line is an include line, its name can be told, and the catalog has a file
of that name at `p`. The file itself need not be readable. -/
def LeadsTo (env : Environment) (line p : Text) : Prop :=
  LineKind.of line = .inclusion ∧
    ∃ name, (headerName env.macros line).outcome = .ok name ∧ env.catalog.find? name = some p

/-- An edge of the include graph. Only a file that can be read has any. -/
def Includes (env : Environment) (p q : Text) : Prop :=
  ∃ content, env.store.readText p = .ok content ∧ ∃ line ∈ content.lines, env.LeadsTo line q

/-- Some line leads to a file from which `q` is reached along zero or more edges. -/
def Reaches (env : Environment) (lines : List Text) (q : Text) : Prop :=
  ∃ line ∈ lines, ∃ p, env.LeadsTo line p ∧ ReflTransGen env.Includes p q

/-- The line is one of `lines`, or of a readable file that they reach. -/
def Occurs (env : Environment) (lines : List Text) (line : Text) : Prop :=
  line ∈ lines ∨
    ∃ q content, env.Reaches lines q ∧ env.store.readText q = .ok content ∧ line ∈ content.lines

theorem outcome_resolve_eq_ok_iff {c : Catalog} {name : Text} {target : { path // path ∈ c.files }} :
    (c.resolve name).outcome = .ok target ↔ c.find? name = some target.1 := by
  unfold Catalog.resolve
  dsimp only
  split
  next path found => simp [found, Subtype.ext_iff]
  next found => simp [found]

theorem outcome_resolve_eq_error_iff {c : Catalog} {name : Text} {problem : Problem} :
    (c.resolve name).outcome = .error problem ↔ c.find? name = none ∧ .unknownFile name = problem := by
  unfold Catalog.resolve
  dsimp only
  split
  next path found => simp [found]
  next found => simp [found]

theorem outcome_target_eq_ok_iff {target : { path // path ∈ env.catalog.files }} :
    (env.target line).outcome = .ok target ↔
      ∃ name, (headerName env.macros line).outcome = .ok name ∧
        env.catalog.find? name = some target.1 := by
  have hResolve (name : Text) (f : Problem → Problem) :
      ((env.catalog.resolve name).mapError f).outcome = .ok target ↔
        env.catalog.find? name = some target.1 := by
    rw [← outcome_resolve_eq_ok_iff, Traced.mapError]
    cases (env.catalog.resolve name).outcome with
    | error problem => constructor <;> intro h <;> cases h
    | ok other => exact Iff.rfl
  simp only [Environment.target, Traced.outcome_bind_eq_ok_iff, hResolve]

theorem outcome_target_eq_error_iff {problem : Problem} :
    (env.target line).outcome = .error problem ↔
      (headerName env.macros line).outcome = .error problem ∨
        ∃ name, (headerName env.macros line).outcome = .ok name ∧ env.catalog.find? name = none ∧
          .unresolvedInclude line (Problem.unknownFile name).message = problem := by
  have hResolve (name : Text) (f : Problem → Problem) :
      ((env.catalog.resolve name).mapError f).outcome = .error problem ↔
        env.catalog.find? name = none ∧ f (.unknownFile name) = problem := by
    rw [Traced.mapError]
    cases hFound : (env.catalog.resolve name).outcome with
    | error unknown =>
        obtain ⟨hNone, rfl⟩ := outcome_resolve_eq_error_iff.mp hFound
        show Except.error (f (.unknownFile name)) = .error problem ↔ _
        simp [hNone]
    | ok target =>
        show Except.ok target = .error problem ↔ _
        simp [outcome_resolve_eq_ok_iff.mp hFound]
  simp only [Environment.target, Traced.outcome_bind_eq_error_iff, hResolve]

theorem leadsTo_iff_target : env.LeadsTo line p ↔
    LineKind.of line = .inclusion ∧ ∃ listed, (env.target line).outcome = .ok ⟨p, listed⟩ := by
  constructor
  · rintro ⟨hKind, name, hName, hFound⟩
    exact ⟨hKind, Dictionary.mem_values_of_get? hFound,
      outcome_target_eq_ok_iff.mpr ⟨name, hName, hFound⟩⟩
  · rintro ⟨hKind, listed, hTarget⟩
    exact ⟨hKind, outcome_target_eq_ok_iff.mp hTarget⟩

/-- A line leads to one file at most. -/
theorem LeadsTo.unique (hp : env.LeadsTo line p) (hq : env.LeadsTo line q) : p = q := by
  obtain ⟨-, _, hp⟩ := leadsTo_iff_target.mp hp
  obtain ⟨-, _, hq⟩ := leadsTo_iff_target.mp hq
  rw [hp] at hq
  cases hq
  rfl

/-- From a readable file the graph leads on as its lines do. -/
theorem transGen_includes_iff : TransGen env.Includes p q ↔
    ∃ content, env.store.readText p = .ok content ∧ env.Reaches content.lines q := by
  rw [TransGen.head'_iff]
  constructor
  · rintro ⟨r, ⟨content, hRead, line, hMem, hLeads⟩, hRest⟩
    exact ⟨content, hRead, line, hMem, r, hLeads, hRest⟩
  · rintro ⟨content, hRead, line, hMem, r, hLeads, hRest⟩
    exact ⟨r, ⟨content, hRead, line, hMem, hLeads⟩, hRest⟩

/-- The files that a line reaches are the one it leads to and those that the
lines of that file reach. -/
theorem reaches_iff : env.Reaches lines q ↔
    ∃ line ∈ lines, ∃ p, env.LeadsTo line p ∧
      (q = p ∨ ∃ content, env.store.readText p = .ok content ∧ env.Reaches content.lines q) := by
  refine exists_congr fun line => and_congr_right fun _ => exists_congr fun p =>
    and_congr_right fun _ => ?_
  rw [reflTransGen_iff_eq_or_transGen, transGen_includes_iff]

theorem Occurs.cons {first : Text} (h : env.Occurs lines line) :
    env.Occurs (first :: lines) line := by
  rcases h with hMem | ⟨q, content, ⟨asking, hMem, rest⟩, found⟩
  · exact Or.inl (List.mem_cons_of_mem _ hMem)
  · exact Or.inr ⟨q, content, ⟨asking, List.mem_cons_of_mem _ hMem, rest⟩, found⟩

/-- What occurs in an included file occurs where it is included. -/
theorem Occurs.of_included {text content : Text} (h : env.Occurs content.lines text)
    (hMem : line ∈ lines) (hLeads : env.LeadsTo line p)
    (hRead : env.store.readText p = .ok content) : env.Occurs lines text := by
  rcases h with hText | ⟨q, other, hReach, rest⟩
  · exact Or.inr ⟨p, content, ⟨line, hMem, p, hLeads, ReflTransGen.refl⟩, hRead, hText⟩
  · exact Or.inr ⟨q, other, reaches_iff.mpr ⟨line, hMem, p, hLeads, Or.inr ⟨content, hRead, hReach⟩⟩,
      rest⟩

end ShaderLibrary.Environment
