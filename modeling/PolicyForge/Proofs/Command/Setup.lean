import PolicyForge.Command.Run
import PolicyForge.Proofs.Build.Stages
import PolicyForge.Proofs.Policy.Loading
/-!
# What a command sets up

Before a build the command only looks at the host: undisturbed, it has settings, a model, references
and a compiler then, or it stops and leaves the host as it was (`exists_setup`).
-/
namespace PolicyForge

open Act

namespace Definition

variable {decode : Decoder}

theorem observes_read (form : Form) (path : String) : Observes (read decode form path) := by
  intro h _
  rw [read_eq]

theorem observes_readAll : ∀ (defs : List (String × Form)), Observes (readAll decode defs)
  | [] => observes_pure []
  | (path, form) :: rest => (observes_checkpoint _).bind fun _ => (observes_read form path).bind fun p =>
      (observes_readAll rest).bind fun ps => observes_pure (p :: ps)

theorem observes_readFile (path : String) : Observes (readFile decode path) := by
  unfold readFile
  split
  · exact observes_throw _
  · exact (observes_checkpoint _).bind fun _ => observes_read _ path

theorem observes_readDirectory (path : String) : Observes (readDirectory decode path) :=
  (observes_checkpoint _).bind fun _ => (observes_reading _ _).bind fun _ => observes_readAll _

end Definition

theorem Model.observes_load (m : Model) : Observes m.load := by
  intro h hq
  cases m with
  | file path policy =>
    have hsame : (Definition.readFile Definition.ofText path h).2 = h :=
      Definition.observes_readFile path h hq
    rw [load, reload_file]
    rcases hread : Definition.readFile Definition.ofText path h with ⟨_ | _, _⟩ <;>
      rw [hread] at hsame <;> exact hsame
  | directory path policies =>
    have hsame : (Definition.readDirectory Definition.ofText path h).2 = h :=
      Definition.observes_readDirectory path h hq
    rw [load, reload_directory]
    rcases hread : Definition.readDirectory Definition.ofText path h with ⟨_ | _, _⟩ <;>
      rw [hread] at hsame <;> exact hsame

namespace Settings

theorem observes_home? : Observes home? :=
  (observes_ask _).bind fun _ => (observes_ask _).bind fun _ => observes_pure _

theorem observes_place (variableName below reason : String) :
    Observes (place variableName below reason) := by
  refine (observes_ask _).bind fun named => observes_home?.bind fun home => ?_
  split
  · exact observes_pure _
  · exact observes_pure _
  · exact observes_throw _

theorem observes_standardPath : Observes standardPath :=
  (observes_place _ _ _).bind fun _ => observes_pure _

theorem observes_load (path : Option String) : Observes (load path) := by
  unfold load
  cases path
  case' some path => refine (observes_pure path).bind fun path => ?_
  case' none => refine observes_standardPath.bind fun path => ?_
  all_goals
    refine (observes_ask _).bind fun found => ?_
    split
    · refine (observes_reading _ _).bind fun text => ?_
      split
      · exact observes_pure _
      · exact observes_throw _
    · exact observes_pure _

theorem observes_cache (s : Settings) : Observes s.cache := by
  unfold cache
  split
  · exact observes_pure _
  · exact (observes_place _ _ _).bind fun _ => observes_pure _

end Settings

namespace Command

theorem observes_loadModel (path : String) : Observes (loadModel path) := by
  refine (observes_ask _).bind fun isDirectory => (observes_ask _).bind fun isFile => ?_
  split
  · exact (Model.observes_load _).mapError
  · split
    · exact (Model.observes_load _).mapError
    · exact observes_throw _

/-! ## What is set up before a build -/

/-- The settings and the model can be loaded, and the settings make a runtime, a cache and a compiler. -/
structure Setup (o : BuildOrder) (h : Host) (s : Settings) (m : Model) (runtime : RuntimeChoice)
    (cache : PackageCache)
    (c : Compiler) : Prop where
  settings : Settings.load o.settings h = (.ok s, h)
  model : loadModel o.input h = (.ok m, h)
  runtime : chooseRuntime o s = .ok runtime
  cache : s.cache h = (.ok cache, h)
  compiler : chooseCompiler o s = .ok c

def emission (o : BuildOrder) (s : Settings) (m : Model) (runtime : RuntimeChoice)
    (cache : PackageCache) (c : Compiler) :
    Act BuildError BuildResult :=
  Build.emit (ReferenceResolver.mk runtime cache (.ofAddress s.base)).resolve c m o.assembly o.output

/-- What is done with the result of a build. -/
def finish (o : BuildOrder) (r : BuildResult) : Act CommandError BuildResult := do
  if r.succeeded then (writeCompanions o r).mapError .build
  return r

variable {o : BuildOrder} {h h' : Host} {s : Settings} {m : Model} {runtime : RuntimeChoice}
  {cache : PackageCache}
  {c : Compiler}

theorem chooseReferences_of_ok (hruntime : chooseRuntime o s = .ok runtime)
    (hcache : s.cache h = (.ok cache, h)) :
    chooseReferences o s h =
      (.ok (ReferenceResolver.mk runtime cache (.ofAddress s.base)).resolve, h) := by
  have hchosen : (ofExcept (chooseRuntime o s)).mapError CommandError.references h =
      (.ok runtime, h) := by
    rw [hruntime]
    rfl
  exact (bind_of_ok hchosen).trans ((bind_of_ok hcache).trans rfl)

/-- Undisturbed, a runtime and a cache are found or the command stops with the host as it was. -/
theorem chooseReferences_cases (hq : h.interrupt = .quiet) (o : BuildOrder) (s : Settings) :
    (∃ runtime cache, chooseRuntime o s = .ok runtime ∧ s.cache h = (.ok cache, h)) ∨
      ∃ e, chooseReferences o s h = (.error e, h) := by
  cases hruntime : chooseRuntime o s with
  | error e =>
    have hchosen : (ofExcept (chooseRuntime o s)).mapError CommandError.references h =
        (.error (.references e), h) := by
      rw [hruntime]
      rfl
    exact .inr ⟨.references e, bind_of_error hchosen⟩
  | ok runtime =>
    have hchosen : (ofExcept (chooseRuntime o s)).mapError CommandError.references h =
        (.ok runtime, h) := by
      rw [hruntime]
      rfl
    rcases hcache : s.cache h with ⟨e | cache, mid⟩ <;>
      obtain rfl := (Settings.observes_cache s).eq hq hcache
    · exact .inr ⟨e, (bind_of_ok hchosen).trans (bind_of_error hcache)⟩
    · exact .inl ⟨runtime, cache, rfl, rfl⟩

theorem build_of_setup (hs : Setup o h s m runtime cache c) : build o h =
    (do let r ← (emission o s m runtime cache c).mapError CommandError.build; finish o r) h := by
  have hcompiler : (ofExcept (chooseCompiler o s)).mapError CommandError.build h = (.ok c, h) := by
    rw [hs.compiler]
    rfl
  exact (bind_of_ok hs.settings).trans ((bind_of_ok hs.model).trans
    ((bind_of_ok (chooseReferences_of_ok hs.runtime hs.cache)).trans (bind_of_ok hcompiler)))

/-- Undisturbed, everything is set up or the command stops with the host as it was. -/
theorem exists_setup (hq : h.interrupt = .quiet) (o : BuildOrder) :
    (∃ s m runtime cache c, Setup o h s m runtime cache c) ∨ ∃ e, build o h = (.error e, h) := by
  rcases hsettings : Settings.load o.settings h with ⟨e | s, mid⟩ <;>
    obtain rfl := (Settings.observes_load _).eq hq hsettings
  · exact .inr ⟨e, bind_of_error hsettings⟩
  rcases hmodel : loadModel o.input mid with ⟨e | m, mid'⟩ <;>
    obtain rfl := (observes_loadModel _).eq hq hmodel
  · exact .inr ⟨e, (bind_of_ok hsettings).trans (bind_of_error hmodel)⟩
  rcases chooseReferences_cases hq o s with ⟨runtime, cache, hruntime, hcache⟩ | ⟨e, hreferences⟩
  · cases hcompiler : chooseCompiler o s with
    | error e =>
      have hchosen : (ofExcept (chooseCompiler o s)).mapError CommandError.build mid' =
          (.error (.build e), mid') := by
        rw [hcompiler]
        rfl
      exact .inr ⟨.build e, (bind_of_ok hsettings).trans ((bind_of_ok hmodel).trans
        ((bind_of_ok (chooseReferences_of_ok hruntime hcache)).trans (bind_of_error hchosen)))⟩
    | ok c => exact .inl ⟨s, m, runtime, cache, c, hsettings, hmodel, hruntime, hcache, hcompiler⟩
  · exact .inr ⟨e, (bind_of_ok hsettings).trans ((bind_of_ok hmodel).trans (bind_of_error hreferences))⟩

end Command

end PolicyForge
