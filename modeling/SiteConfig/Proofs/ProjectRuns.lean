import Mathlib
import SiteConfig.Project.Loader
import SiteConfig.Proofs.Fields
import SiteConfig.Proofs.LoadIds
import SiteConfig.Proofs.Paths
/-!
# Load identifiers of a project

A project goes through steps: files and variables change, and configurations are loaded. Every load
that opens its module takes an identifier, also one that fails afterwards, so that the modules that
are imported have ascending identifiers.
-/
namespace SiteConfig.Project

open LoadId (Counter greatest own returnedIds storedIds)

/-- A step of a project. A load happens at a time in milliseconds. -/
inductive Action where
  | writeFile (path : String) (bytes : List UInt8)
  | makeDirectory (path : String)
  | removeAll (path : String)
  | setVariable (name value : String)
  | unsetVariable (name : String)
  | importModule (time : Int) (cwd : String)
  | loadRaw (time : Int) (cwd : String)
  | load (time : Int) (cwd : String) (envBeginning : Option String)

/-- The project after a step. Where the files cannot be changed as asked for, nothing changes. -/
def act (project : Project) : Action → Project
  | .writeFile path bytes => (project.writeFile path bytes).toOption.getD project
  | .makeDirectory path => (project.makeDirectory path).toOption.getD project
  | .removeAll path => (project.removeAll path).toOption.getD project
  | .setVariable name value => project.setVariable name value
  | .unsetVariable name => project.unsetVariable name
  | .importModule time cwd => (project.importModule (LoadId.reading time) cwd).1
  | .loadRaw time cwd => (project.loadRaw (LoadId.reading time) cwd).1
  | .load time cwd envBeginning => (project.load (LoadId.reading time) cwd envBeginning).1

def imported? (project : Project) : Action → Option LoadedModule
  | .importModule time cwd | .loadRaw time cwd | .load time cwd _ =>
    (project.importModule (LoadId.reading time) cwd).2.result.toOption.join
  | _ => none

def run (project : Project) : List Action → Project
  | [] => project
  | action :: rest => (project.act action).run rest

def importedIds (project : Project) : List Action → List Nat
  | [] => []
  | action :: rest =>
    ((project.imported? action).map LoadedModule.loadId).toList ++
      (project.act action).importedIds rest

section Imports

variable {project : Project} {now : Nat} {cwd path : String} {loadId : Nat} {node : FileNode}

theorem importModule_of_error {error : FileError}
    (h : project.openFile (configPath cwd) = .error error) :
    project.importModule now cwd = (project, ⟨[.fileNotAccessible error.message], .ok none⟩) := by
  rw [importModule, h]

theorem importModule_of_ok (h : project.openFile (configPath cwd) = .ok node) :
    project.importModule now cwd =
      ({ project with lastLoadId := LoadId.next now project.lastLoadId },
        (evaluateFile (configPath cwd) (LoadId.next now project.lastLoadId) node).andThen
          fun loaded => ⟨[], .ok (some loaded)⟩) := by
  rw [importModule, h]

theorem loadId_of_evaluateFile {loaded : LoadedModule}
    (h : (evaluateFile path loadId node).result = .ok loaded) : loaded.loadId = loadId := by
  unfold evaluateFile at h
  split at h
  · cases h
  · split at h
    · cases h
    · cases h
      rfl

theorem importModule_cases (project : Project) (now : Nat) (cwd : String) :
    ((project.importModule now cwd).1 = project ∧
      (project.importModule now cwd).2.result.toOption.join = none) ∨
    ((project.importModule now cwd).1.lastLoadId = LoadId.next now project.lastLoadId ∧
      ∀ loaded ∈ (project.importModule now cwd).2.result.toOption.join,
        loaded.loadId = LoadId.next now project.lastLoadId) := by
  cases hopen : project.openFile (configPath cwd) with
  | error error =>
    rw [importModule_of_error hopen]
    exact .inl ⟨rfl, rfl⟩
  | ok node =>
    rw [importModule_of_ok hopen]
    refine .inr ⟨rfl, fun loaded h => ?_⟩
    rw [Validator.result_andThen] at h
    cases hresult : (evaluateFile (configPath cwd) (LoadId.next now project.lastLoadId) node).result
    with
    | error e =>
      rw [hresult] at h
      cases h
    | ok other =>
      rw [hresult] at h
      cases h
      exact loadId_of_evaluateFile hresult

end Imports

section Steps

theorem lastLoadId_of_bind {α : Type} (project : Project) (x : Except FileError α)
    (f : α → Files) :
    ((x.bind fun a => .ok { project with files := f a }).toOption.getD project).lastLoadId =
      project.lastLoadId := by
  cases x <;> rfl

/-- A step either takes no identifier and imports nothing, or takes the next one. -/
theorem act_cases (project : Project) (action : Action) :
    ((project.act action).lastLoadId = project.lastLoadId ∧ project.imported? action = none) ∨
    ∃ time, (project.act action).lastLoadId =
        LoadId.next (LoadId.reading time) project.lastLoadId ∧
      ∀ loaded ∈ project.imported? action, loaded.loadId = (project.act action).lastLoadId := by
  have himport (time : Int) (cwd : String) :=
    importModule_cases project (LoadId.reading time) cwd
  cases action with
  | writeFile path bytes => exact .inl ⟨lastLoadId_of_bind project _ id, rfl⟩
  | makeDirectory path => exact .inl ⟨lastLoadId_of_bind project _ Prod.fst, rfl⟩
  | removeAll path => exact .inl ⟨lastLoadId_of_bind project _ id, rfl⟩
  | setVariable name value =>
    refine .inl ⟨?_, rfl⟩
    rw [act, setVariable]
    split <;> rfl
  | unsetVariable name => exact .inl ⟨rfl, rfl⟩
  | importModule time cwd | loadRaw time cwd | load time cwd envBeginning =>
    rcases himport time cwd with ⟨hsame, hnone⟩ | ⟨hnext, hloaded⟩
    · exact .inl ⟨congrArg lastLoadId hsame, hnone⟩
    · exact .inr ⟨time, hnext, fun loaded h => (hloaded loaded h).trans hnext.symm⟩

end Steps

section Runs

theorem importedIds_append (project : Project) (earlier later : List Action) :
    project.importedIds (earlier ++ later) =
      project.importedIds earlier ++ (project.run earlier).importedIds later := by
  induction earlier generalizing project with
  | nil => rfl
  | cons action rest ih => rw [List.cons_append, importedIds, importedIds, ih, List.append_assoc, run]

/-- The identifiers of a project are taken by calls one after the other, those of imported modules
among them. -/
theorem exists_schedule (project : Project) (actions : List Action) :
    ∃ schedule : List (Unit × Int),
      (Counter.start project.lastLoadId).run schedule =
        Counter.start (project.run actions).lastLoadId ∧
      (project.importedIds actions).Sublist
        (storedIds ((Counter.start project.lastLoadId).trace schedule)) := by
  induction actions generalizing project with
  | nil => exact ⟨[], rfl, List.nil_sublist _⟩
  | cons action rest ih =>
    obtain ⟨schedule, hrun, hids⟩ := ih (project.act action)
    rcases act_cases project action with ⟨hlast, hnone⟩ | ⟨time, hlast, hloaded⟩
    · rw [hlast] at hrun hids
      refine ⟨schedule, hrun, ?_⟩
      rwa [importedIds, hnone]
    · rw [hlast] at hrun hids
      refine ⟨LoadId.wholeCall () time ++ schedule, ?_, ?_⟩
      · rw [LoadId.run_append, LoadId.run_wholeCall, hrun, run]
      · rw [LoadId.trace_append, LoadId.trace_wholeCall, LoadId.run_wholeCall, importedIds]
        cases himported : project.imported? action with
        | none => exact hids.cons _
        | some loaded =>
          have hid : loaded.loadId = LoadId.next (LoadId.reading time) project.lastLoadId :=
            (hloaded loaded himported).trans hlast
          exact hid ▸ hids.cons_cons loaded.loadId

/-- The identifiers of imported modules ascend as long as the last identifier lies below the
greatest one. -/
theorem pairwise_importedIds (project : Project) (actions : List Action) (action : Action)
    (h : (project.run actions).lastLoadId < greatest) :
    (project.lastLoadId :: project.importedIds (actions ++ [action])).Pairwise (· < ·) := by
  obtain ⟨schedule, hrun, hids⟩ := exists_schedule project actions
  have htraced := LoadId.traced_run project.lastLoadId schedule
  rw [hrun] at htraced
  have hsublist := hids.cons_cons project.lastLoadId
  rw [importedIds_append, ← List.cons_append, List.pairwise_append]
  refine ⟨(htraced.ascending h).sublist hsublist, ?_, ?_⟩
  · rw [importedIds, importedIds, List.append_nil]
    cases (project.run actions).imported? action <;> simp
  · intro earlier hearlier id hid
    rcases act_cases (project.run actions) action with ⟨-, hnone⟩ | ⟨time, hlast, hloaded⟩
    · simp [importedIds, hnone] at hid
    · obtain ⟨loaded, himported, rfl⟩ : ∃ loaded,
          (project.run actions).imported? action = some loaded ∧ loaded.loadId = id := by
        simpa [importedIds] using hid
      rw [hloaded loaded himported, hlast]
      exact htraced.lt_next h _ earlier (hsublist.subset hearlier)

end Runs

/-- Identifiers are unique and ascend below the greatest one. -/
theorem loadIds_ascend :
    (∀ (Caller : Type) [DecidableEq Caller] (first : Nat) (schedule : List (Caller × Int)),
      (∀ caller, ∃ completed started,
        own caller ((Counter.start first).trace schedule) = completed ++ started ∧
          LoadId.Completed caller completed ∧
          LoadId.UnderWay caller (((Counter.start first).run schedule).calls caller) started ∧
          (completed ++ started).length = (schedule.filter fun step => step.1 = caller).length) ∧
      (∀ before caller id after,
        (Counter.start first).trace schedule = before ++ .stores caller id :: after →
          (storedIds before).getLastD first < greatest →
            ∀ earlier ∈ first :: storedIds before, earlier < id) ∧
      ((storedIds ((Counter.start first).trace schedule)).getLastD first < greatest →
        (returnedIds ((Counter.start first).trace schedule)).Nodup)) ∧
    ∀ (project : Project) actions action, (project.run actions).lastLoadId < greatest →
      (project.lastLoadId :: project.importedIds (actions ++ [action])).Pairwise (· < ·) := by
  refine ⟨fun Caller _ first schedule => ⟨fun caller => ?_, ?_, fun hlast => ?_⟩,
    pairwise_importedIds⟩
  · obtain ⟨completed, started, hown, hcompleted, hstarted⟩ :=
      (LoadId.traced_run first schedule).calls caller
    exact ⟨completed, started, hown, hcompleted, hstarted,
      hown ▸ LoadId.length_own_trace _ schedule caller⟩
  · exact fun before caller id after h hlast => LoadId.lt_of_stores first schedule h hlast
  · have htraced := LoadId.traced_run first schedule
    exact htraced.nodup_returnedIds
      ((htraced.ascending (htraced.last ▸ hlast)).imp Nat.ne_of_lt).of_cons

section Sample

def sampleText : String := "export default {}"

def sampleProject (lastLoadId : Nat) : Project where
  root := "site"
  files := [(["suv.config.js"], .file (sampleText.toList.map Char.toUInt8)), (["new"], .directory),
    (["new", "suv.config.js"], .directory)]
  environment := []
  lastLoadId := lastLoadId

theorem openFile_sampleProject (last : Nat) :
    (sampleProject last).openFile (configPath "site") =
        .ok (.file (sampleText.toList.map Char.toUInt8)) ∧
      (sampleProject last).openFile (configPath "site/new") = .ok .directory := by
  have hpath : configPath "site" = "site/suv.config.js" := by decide +kernel
  have hnew : configPath "site/new" = "site/new/suv.config.js" := by decide +kernel
  rw [hpath, hnew]
  constructor
  · rw [openFile, if_neg (by decide), if_neg (by decide), route, splitOn_slash]
    rfl
  · rw [openFile, if_neg (by decide), if_neg (by decide), route, splitOn_slash]
    rfl

theorem importModule_sampleProject (last now : Nat) :
    (sampleProject last).importModule now "site" = (sampleProject (LoadId.next now last),
      ⟨[.moduleEvaluated 17],
        .ok (some ⟨configPath "site", LoadId.next now last, .object []⟩)⟩) := by
  have hvalue : ConfigModule.evaluate sampleText = .ok (.object []) := by cbv
  have htext : FileNode.readText (.file (sampleText.toList.map Char.toUInt8)) =
      .ok sampleText := by cbv
  rw [importModule_of_ok (openFile_sampleProject last).1, evaluateFile, htext]
  simp only [hvalue]
  rfl

theorem importModule_sampleProject_new (last now : Nat) :
    (sampleProject last).importModule now "site/new" = (sampleProject (LoadId.next now last),
      .fail (.load (configPath "site/new") FileError.isDirectory.message)) := by
  rw [importModule_of_ok (openFile_sampleProject last).2]
  rfl

def sampleActions : List Action :=
  [.importModule 7 "site", .load 9 "site/new" none]

theorem run_sampleActions : (sampleProject 0).run sampleActions = sampleProject 9 := by
  simp only [sampleActions, run, act, load, loadRaw, importModule_sampleProject,
    importModule_sampleProject_new]
  rfl

theorem importedIds_sampleActions :
    (sampleProject 0).importedIds (sampleActions ++ [.loadRaw 3 "site"]) = [7, 10] := by
  simp only [importedIds_append, run_sampleActions]
  simp only [sampleActions, importedIds, imported?, act, importModule_sampleProject,
    importModule_sampleProject_new]
  rfl

def sampleSchedule : List (Bool × Int) :=
  [(false, 5), (true, 3), (false, 0), (true, 0), (true, 0), (false, 0)]

theorem trace_sampleSchedule : (Counter.start 0).trace sampleSchedule =
    [.readsClock false 5, .readsClock true 3, .stores false 5] ++
      .stores true 6 :: [.returns true 6, .returns false 5] := rfl

theorem loadIds_ascend_sampleActions :
    (storedIds ((Counter.start 0).trace sampleSchedule)).getLastD 0 < greatest ∧
      (∀ earlier ∈ [0, 5], earlier < 6) ∧
      (returnedIds ((Counter.start 0).trace sampleSchedule)).Nodup ∧
      ((sampleProject 0).run sampleActions).lastLoadId < greatest ∧
      (sampleProject 0).importedIds (sampleActions ++ [.loadRaw 3 "site"]) = [7, 10] ∧
      [0, 7, 10].Pairwise (· < ·) := by
  obtain ⟨-, hstores, hreturns⟩ := loadIds_ascend.1 Bool 0 sampleSchedule
  have hlast : (storedIds ((Counter.start 0).trace sampleSchedule)).getLastD 0 < greatest := by
    rw [trace_sampleSchedule]
    decide
  have hrun : ((sampleProject 0).run sampleActions).lastLoadId < greatest := by
    rw [run_sampleActions]
    decide
  have hascend := loadIds_ascend.2 (sampleProject 0) sampleActions (.loadRaw 3 "site") hrun
  rw [importedIds_sampleActions] at hascend
  exact ⟨hlast, hstores _ true 6 _ trace_sampleSchedule (by decide), hreturns hlast, hrun,
    importedIds_sampleActions, hascend⟩

end Sample

end SiteConfig.Project
