import NicObFw.SensorThreads

/-!
# The sensor thread and its timer

The loop of `sensor_mgr_task` around `poll_all_sensors`, and the timer that triggers it. The callback of
the timer runs in the timer daemon and sets `s_poll_trigger`, which the task tests and clears in two
steps; the other threads are those of `SensorThreads.lean`.
-/

namespace NicObFw

/-- Where `sensor_mgr_task` is. -/
inductive SensorMgrPhase where
  /-- At `rtos_timer_start`. -/
  | start
  /-- At the head of the loop, where `s_poll_trigger` is tested. -/
  | test
  /-- Where `s_poll_trigger` is cleared. -/
  | clear
  /-- In `poll_all_sensors`. -/
  | poll
  /-- In `sensor_alert_queue_receive`. -/
  | receive
deriving DecidableEq, Repr

/-- The state of the module, with that of the threads around the cache. -/
structure SensorMgr (ι : Type) where
  threads : SensorThreads ι
  phase : SensorMgrPhase
  sPollTrigger : Bool
  /-- `s_poll_timer` is running. -/
  sPollTimer : Bool
  sAlertQueue : FreeRtos.Queue NicEventMsg queueDepthSensor

inductive SensorMgrAction (ι : Type) where
  /-- `rtos_timer_start`, with the result that the task ignores. -/
  | timerStart (ok : Bool)
  /-- The next step of the task; a read of a sensor in it goes through this HAL. -/
  | sensorMgrTask (hal : SensorHal)
  /-- The wait for an alert runs into its timeout. -/
  | receiveTimeout
  /-- The timer expires, and the timer daemon calls `sensor_poll_timer_cb`. -/
  | sensorPollTimerCb
  /-- A step of a reader, or of the clock. -/
  | other (a : SensorAction ι)

inductive SensorMgrEvent (ι : Type) where
  | timerStarted (ok : Bool)
  /-- `s_poll_trigger` was set. -/
  | triggered
  /-- The task received an alert, or none within its time. -/
  | alert (alert : Option NicEventMsg)
  /-- An event of the threads around the cache. -/
  | threads (e : SensorEvent ι)
deriving DecidableEq

variable {ι : Type} [DecidableEq ι]

/-- The next step of `sensor_mgr_task` in its loop; `none` while it is blocked. -/
def sensorMgrLoop (cfg : TickConfig) (s : SensorMgr ι) (hal : SensorHal) :
    Option (SensorMgr ι × List (SensorMgrEvent ι)) :=
  match s.phase with
  | .start => none
  | .test => some ({ s with phase := if s.sPollTrigger then .clear else .receive }, [])
  | .clear => some ({ s with sPollTrigger := false, phase := .poll }, [])
  | .poll =>
    (sensorMgrTask cfg s.threads hal).map fun r =>
      -- the poll returns when its last sensor is done
      let phase := if r.1.task = .idle then .receive else .poll
      ({ s with threads := r.1, phase }, r.2.map .threads)
  | .receive =>
    match rtosQueueReceive s.sAlertQueue with
    | (.ok, some alert, sAlertQueue) =>
      some ({ s with sAlertQueue, phase := .test }, [.alert (some alert)])
    | _ => none

/-- The steps of all threads. No function of the source posts to `s_sensor_alert_queue`. -/
def sensorMgr (ι : Type) [DecidableEq ι] (cfg : TickConfig) :
    Machine (SensorMgr ι) (SensorMgrAction ι) (SensorMgrEvent ι) where
  step s
    | .timerStart ok =>
      if s.phase = .start then some ({ s with phase := .test, sPollTimer := ok }, [.timerStarted ok])
      else none
    | .sensorMgrTask hal => sensorMgrLoop cfg s hal
    | .receiveTimeout =>
      if s.phase = .receive then some ({ s with phase := .test }, [.alert none]) else none
    | .sensorPollTimerCb =>
      if s.sPollTimer then some ({ s with sPollTrigger := true }, [.triggered]) else none
    | .other (.sensorMgrTask _) => none
    | .other a =>
      ((sensorThreads ι cfg).step s.threads a).map fun r =>
        ({ s with threads := r.1 }, r.2.map .threads)

/-- The state in which the task starts, after `sensor_mgr_init`. -/
def sensorMgrTaskInit (ι : Type) (ticks : ℕ) : SensorMgr ι where
  threads := sensorThreadsInit ι ticks
  phase := .start
  sPollTrigger := false
  sPollTimer := false
  sAlertQueue := .create _ _

/-! ## Histories -/

/-- What the threads around the cache reported. -/
def threadEvents (tr : List (SensorMgrEvent ι)) : List (SensorEvent ι) :=
  tr.filterMap fun
    | .threads e => some e
    | _ => none

/-- A poll was started. -/
def SensorMgrEvent.startsPoll : SensorMgrEvent ι → Bool
  | threads .pollStarted => true
  | _ => false

/-- A poll was finished. -/
def SensorMgrEvent.finishesPoll : SensorMgrEvent ι → Bool
  | threads .pollFinished => true
  | _ => false

/-- The timer set the trigger. -/
def SensorMgrEvent.triggers : SensorMgrEvent ι → Bool
  | triggered => true
  | _ => false

/-- The task has cleared the trigger, and not read `s_cache.count` yet. -/
def SensorMgr.AboutToPoll (s : SensorMgr ι) : Prop := s.phase = .poll ∧ s.threads.task = .idle

instance (s : SensorMgr ι) : Decidable s.AboutToPoll := inferInstanceAs (Decidable (_ ∧ _))

/-- A step of the task, or the end of its wait. -/
def SensorMgrAction.ofTask : SensorMgrAction ι → Bool
  | sensorMgrTask _ => true
  | receiveTimeout => true
  | _ => false

end NicObFw
