import ShaderLibrary.Stage
import ShaderLibrary.Proofs.Dump

/-! The journal of a request. Each record begins with a headline that tells what it is about, and
those of a request for a shader are about nothing else. -/
namespace ShaderLibrary

namespace Traced

variable {ε α β : Type} {run : Traced ε α} {heads : List Text}

/-- The records of a run that begin with a headline. -/
def recordsUnder (headline : Text) (run : Traced ε α) : List Record :=
  run.records.filter fun record => headline.isPrefixOf record.message

theorem recordsUnder_bind (headline : Text) {a : α} (next : α → Traced ε β)
    (h : run.outcome = .ok a) :
    (run >>= next).recordsUnder headline =
      run.recordsUnder headline ++ (next a).recordsUnder headline := by
  rw [bind_of_ok next h]
  simp only [recordsUnder, records, List.filterMap_append, List.filter_append]

/-- All that is recorded begins with one of these headlines. -/
def Headed (heads : List Text) (run : Traced ε α) : Prop :=
  ∀ record, .logged record ∈ run.events → ∃ head ∈ heads, head <+: record.message

/-- A headline that goes with none of those that a run has is not found in it. -/
theorem Headed.recordsUnder_eq_nil {headline : Text} (h : run.Headed heads)
    (hOther : ∀ head ∈ heads, ¬ headline <+: head ∧ ¬ head <+: headline) :
    run.recordsUnder headline = [] := by
  refine List.filter_eq_nil_iff.mpr fun record hRecord hHeadline => ?_
  obtain ⟨event, hEvent, hLogged⟩ := List.mem_filterMap.mp hRecord
  have hHere : .logged record ∈ run.events := by
    cases event with
    | logged other => cases hLogged; exact hEvent
    | _ => cases hLogged
  obtain ⟨head, hHead, hBegins⟩ := h record hHere
  rcases List.prefix_or_prefix_of_prefix (List.isPrefixOf_iff_prefix.mp hHeadline) hBegins with
    hPrefix | hPrefix
  · exact (hOther head hHead).1 hPrefix
  · exact (hOther head hHead).2 hPrefix

end Traced

/-- How the records begin that a request for a shader or for its stage can leave. -/
def Library.headlines : List Text :=
  ["Unknown shader type (id: '".toList, "Shader cache miss for '".toList,
    "Shader section '".toList, "Unknown shader file name '".toList,
    "Could not find the shader '".toList, "Cannot resolve include directive: ".toList,
    "Include refers to undefined key '".toList, "Circular include: ".toList,
    "Cannot get shader '".toList, "Cannot read shader file for '".toList]

open Library (headlines)

theorem Problem.exists_headline (p : Problem) : ∃ head ∈ headlines, head <+: p.message := by
  cases p with
  | unknownFile name =>
      exact ⟨"Unknown shader file name '".toList, by decide, _, (List.append_assoc _ _ _).symm⟩
  | unknownSection id =>
      exact ⟨"Could not find the shader '".toList, by decide, _, (List.append_assoc _ _ _).symm⟩
  | unresolvedInclude subject reason =>
      exact ⟨"Cannot resolve include directive: ".toList, by decide, _,
        (List.append_assoc _ _ _).symm⟩
  | undefinedMacro key line =>
      exact ⟨"Include refers to undefined key '".toList, by decide, _,
        ((List.append_assoc _ _ _).trans (List.append_assoc _ _ _)).symm⟩
  | circularInclude chain => exact ⟨"Circular include: ".toList, by decide, _, rfl⟩

theorem Environment.headed_of_meets {env : Environment} {lines : List Text} {record : Record}
    (h : env.Meets lines (.logged record)) : ∃ head ∈ headlines, head <+: record.message := by
  cases h with
  | noted hNoted =>
      rename_i problem
      have hRecord : record = ⟨.error, problem.message⟩ := by simpa [noted] using hNoted
      rw [hRecord]
      exact problem.exists_headline

theorem Effect.headed_ofText (env : Environment) (base text : Text) (origin : Option Text) :
    (Effect.ofText env base text origin).Headed headlines := by
  intro record hRecord
  rcases Effect.mem_events_assembleAll hRecord with ⟨part, -, hMeets⟩ | ⟨repeated, hSame, hHead⟩
  · exact Environment.headed_of_meets hMeets
  · cases hSame
    exact ⟨"Shader section '".toList, by decide, hHead⟩

namespace Cache

theorem headed_get (c : Cache) (env : Environment) (id : Text) :
    (c.get env (.text id)).1.Headed headlines := by
  intro record hRecord
  rcases mem_events_get hRecord with hMiss | ⟨name, hSought⟩ | ⟨path, hRead⟩ | ⟨text, origin, hText⟩
  · cases hMiss
    exact ⟨"Shader cache miss for '".toList, by decide, _, (List.append_assoc _ _ _).symm⟩
  · cases hSought
  · cases hRead
  · exact Effect.headed_ofText env (baseOf id) text origin record hText

end Cache

/-- What is said about a fault of a request begins with the headline of its kind. -/
theorem Fault.exists_headline (fault : Fault) (id : Text) :
    ∃ head ∈ headlines, head <+: fault.complaint id := by
  cases fault with
  | store e =>
      exact ⟨"Cannot read shader file for '".toList, by decide, _,
        ((List.append_assoc _ _ _).trans (List.append_assoc _ _ _)).symm⟩
  | _ =>
      exact ⟨"Cannot get shader '".toList, by decide, _,
        ((List.append_assoc _ _ _).trans (List.append_assoc _ _ _)).symm⟩

namespace Library

variable {l : Library} {store : Store}

theorem headed_getText (hStore : store.RefusesOn l.catalog.files) (id : Text) :
    (l.getText store (.text id)).1.Headed headlines := by
  have hHeaded : (l.get store (.text id)).1.Headed headlines :=
    Cache.headed_get l.cache (l.environment store) id
  rw [getText_eq]
  cases hGet : (l.get store (.text id)).1.outcome with
  | ok text =>
      rw [soften_of_ok hGet]
      exact hHeaded
  | error fault =>
      rw [soften_of_told (told_of_get hStore hGet) hGet]
      intro record hRecord
      rcases List.mem_append.mp hRecord with hBefore | hLast
      · exact hHeaded record hBefore
      · cases List.mem_singleton.mp hLast
        exact fault.exists_headline id

end Library

theorem Stage.headed_ofId (id : Text) : (Stage.ofId id : Traced Fault Stage).Headed headlines := by
  intro record hRecord
  unfold Stage.ofId at hRecord
  split at hRecord
  · cases hRecord
  · cases List.mem_singleton.mp hRecord
    exact ⟨"Unknown shader type (id: '".toList, by decide, _, (List.append_assoc _ _ _).symm⟩

end ShaderLibrary
