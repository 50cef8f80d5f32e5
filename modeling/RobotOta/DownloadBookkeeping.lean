import RobotOta.DownloadTask

/-!
# The bookkeeping of downloads

The operations of `OTADownloadMgr` in any order, each as often as it comes,
among the handlers of the service and tasks that other programs start. The id
in memory, the id in the preferences and the tasks of the `DownloadManager`
agree throughout.
-/

namespace RobotOta.DownloadBookkeeping

open OtaDownload DownloadTask

/-- An operation of the manager, or what goes on around it. -/
inductive ManagerEvent where
  | download (deleted : Bool) (url : Option String)
  | queryDownload (renamed : Bool)
  /-- A status arrives at `mDwloadHandler`, posted or repeated. -/
  | notified (renamed : Bool) (status : Option DownloadStatus)
  /-- Other programs start tasks, which are not shown to this one. -/
  | othersEnqueue (tasks : ℕ)
  /-- A handler of the service, a task that moves on or vanishes, a restart. -/
  | service (event : OtaEvent)

/-- One operation runs to its end. -/
def managerStep (state : OtaState) : ManagerEvent → OtaState
  | .download deleted url => download deleted url state
  | .queryDownload renamed => queryDownload renamed state
  | .notified renamed status => handleStatus renamed state status
  | .othersEnqueue tasks => { state with lastId := state.lastId + tasks }
  | .service event => otaStep state event

/-- The state after a list of operations. -/
def managerRun (events : List ManagerEvent) : OtaState := events.foldl managerStep initialState

/-- Every operation keeps the invariant of the task. -/
theorem taskInvariant_managerStep {state : OtaState} (h : TaskInvariant state)
    (event : ManagerEvent) : TaskInvariant (managerStep state event) := by
  cases event with
  | download deleted url => exact h.download deleted url
  | queryDownload renamed => exact h.queryDownload renamed
  | notified renamed status => exact h.handleStatus renamed status
  | othersEnqueue tasks => exact ⟨h.saved, h.current, h.stored⟩
  | service event => exact taskInvariant_otaStep event h

/-- The invariant of the task holds after any operations. -/
theorem taskInvariant_managerRun (events : List ManagerEvent) :
    TaskInvariant (managerRun events) := by
  apply List.foldlRecOn events managerStep taskInvariant_initialState
  intro state h event _
  exact taskInvariant_managerStep h event

/-- In every state the id in memory is the stored one, and the `DownloadManager`
holds one task of this program at most, the one with that id. -/
theorem download_bookkeeping (events : List ManagerEvent) :
    (managerRun events).mDwloadId = (managerRun events).downloadIdPref ∧
      (∀ id other, ((managerRun events).rows id).isSome →
        ((managerRun events).rows other).isSome → id = other) ∧
      ∀ id, ((managerRun events).rows id).isSome →
        id = (managerRun events).mDwloadId ∧ (managerRun events).mDwloadId ≠ 0 := by
  have h := taskInvariant_managerRun events
  have hcurrent : ∀ id, ((managerRun events).rows id).isSome →
      id = (managerRun events).mDwloadId ∧ (managerRun events).mDwloadId ≠ 0 := by
    intro id hsome
    obtain ⟨row, hrow⟩ := Option.isSome_iff_exists.mp hsome
    obtain ⟨hid, hzero⟩ := h.current id row hrow
    exact ⟨hid, hid ▸ hzero⟩
  refine ⟨h.saved.symm, ?_, hcurrent⟩
  intro id other hid hother
  rw [(hcurrent id hid).1, (hcurrent other hother).1]

/-- A task that vanishes is forgotten at the next query, and a repeated success
leaves nothing to do. -/
example : (managerRun [.download true (some "u"), .service (.taskRemoved 1),
    .queryDownload true]).mDwloadId = 0 ∧
    (managerRun [.download true (some "u"), .notified true (some .successful),
      .notified true (some .successful), .download true (some "u")]).mDwloadId = 2 := by
  decide

end RobotOta.DownloadBookkeeping
