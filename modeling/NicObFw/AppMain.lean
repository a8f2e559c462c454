import NicObFw.BmcMgr
import NicObFw.Lib.Interference

/-!
# System initialisation and task creation

`app_main` of `main.c` and the initialisation functions that it calls, as a program that runs among the
interrupt service routines and the tasks from the moment they are registered or created. The handles of
the queues are copied from module to module, so a queue is here an object that handles point to, and a
party that uses a handle which is NULL or points to another queue shows as such. A step of the program
is one assignment or one call of code that is not part of the source, which succeeds or fails.
-/

namespace NicObFw

/-! ## Handles and static variables -/

/-- `rtos_queue_handle_t`: NULL, or the queue by its place in the order of creation. -/
abbrev QueueHandle := Option ℕ

/-- A queue in memory, typed by the `QUEUE_CREATE_TYPED` that created it. -/
inductive QueueObject where
  | bmcRx (queue : FreeRtos.Queue BmcRxMsg queueDepthBmc)
  | nicEvent (queue : FreeRtos.Queue NicEventMsg queueDepthNicGen)
  | sensorAlert (queue : FreeRtos.Queue NicEventMsg queueDepthSensor)
  | flashCmd (queue : FreeRtos.Queue FlashCmd queueDepthFlash)

/-- The static variables of `main.c`; of a task handle, whether it is set. -/
structure MainVars where
  sBmcRxQueue : QueueHandle
  sNicEventQueue : QueueHandle
  sSensorAlertQueue : QueueHandle
  sFlashCmdQueue : QueueHandle
  sBmcMgrTask : Bool
  sSensorMgrTask : Bool
  sFlashMgrTask : Bool
deriving DecidableEq, Repr

/-- The static variables of the HAL drivers. -/
structure HalVars where
  /-- `s_initialized` of `bmc_hal.c`. -/
  bmcInitialized : Bool
  /-- `s_rx_callback` is set. -/
  sRxCallback : Bool
  /-- `s_initialized` of `sensor_hal.c`. -/
  sensorInitialized : Bool
  /-- `s_initialized` of `nic_chip_hal.c`. -/
  nicChipInitialized : Bool
  /-- The GPIO driver has taken the alert callback. -/
  alertCallback : Bool
deriving DecidableEq, Repr

/-- The handles of `bmc_mgr.c`. -/
structure BmcMgrVars where
  sBmcRxQueue : QueueHandle
  sNicEventQueue : QueueHandle
  sFlashCmdQueue : QueueHandle
  /-- `s_events` is set. -/
  sEvents : Bool
deriving DecidableEq, Repr

/-- The handles of `sensor_mgr.c`. -/
structure SensorMgrVars where
  sAlertQueue : QueueHandle
  /-- `s_cache_mutex` is set. -/
  sCacheMutex : Bool
  /-- `s_poll_timer` is set. -/
  sPollTimer : Bool
deriving DecidableEq, Repr

/-- The handles of `isr_handlers.c`. -/
structure IsrVars where
  sBmcRxQueue : QueueHandle
  sNicEventQueue : QueueHandle
  sSensorAlertQueue : QueueHandle
deriving DecidableEq, Repr

/-- The variables that only the initialisation writes. -/
structure InitVars where
  main : MainVars
  hal : HalVars
  bmcMgr : BmcMgrVars
  sensorMgr : SensorMgrVars
  /-- `s_cmd_queue` of `nic_flash_mgr.c`. -/
  sCmdQueue : QueueHandle
  isr : IsrVars
deriving DecidableEq, Repr

/-- The whole system. -/
structure System where
  vars : InitVars
  queues : List QueueObject
  phase : BmcMgrPhase
  sEvents : FreeRtos.EventGroup
  mctp : MctpState
  sLastBmcSeenMs : UInt32
  sel : SelState
  sCache : SensorCache
  flashTask : Option FlashCmd
  ticks : ℕ

/-- The static variables before `app_main`, which the loader has set to zero. -/
def powerUp (ticks : ℕ) : System where
  vars :=
    { main := ⟨none, none, none, none, false, false, false⟩
      hal := ⟨false, false, false, false, false⟩
      bmcMgr := ⟨none, none, none, false⟩
      sensorMgr := ⟨none, false, false⟩
      sCmdQueue := none
      isr := ⟨none, none, none⟩ }
  queues := []
  phase := .wait
  sEvents := ⟨0⟩
  mctp := ⟨Vector.replicate _ 0, 0, 0, false⟩
  sLastBmcSeenMs := 0
  sel := ⟨Vector.replicate _ ⟨0, 0, 0⟩, 0, 0⟩
  sCache := ⟨Vector.replicate _ ⟨0, 0, 0, 0, 0, 0, Vector.replicate _ 0, 0⟩, 0⟩
  flashTask := none
  ticks := ticks

/-! ## Statements -/

/-- The program of `app_main`; the answer to a call is whether it succeeds. -/
abbrev AppM := Thread Bool System

/-- An assignment to static variables. -/
def assign (f : System → System) : AppM Unit := Thread.act fun _ s => (f s, ())

/-- The value of static variables. -/
def readVars {ρ : Type} (f : InitVars → ρ) : AppM ρ := Thread.act fun _ s => (s, f s.vars)

/-- A call of a driver, or of FreeRTOS, that the system sees nothing of but its result. -/
def external : AppM Bool := Thread.act fun ok s => (s, ok)

/-- A call whose result decides what is assigned. -/
def externalAssign (f : Bool → InitVars → InitVars) : AppM Bool :=
  Thread.act fun ok s => ({ s with vars := f ok s.vars }, ok)

/-- `rtos_event_group_create`, with the assignment of its result. -/
def eventGroupCreate (f : Bool → InitVars → InitVars) : AppM Bool :=
  Thread.act fun ok s => ({ s with vars := f ok s.vars, sEvents := .create }, ok)

/-- `rtos_queue_create`, with the assignment of its result. -/
def queueCreate (new : QueueObject) (f : QueueHandle → InitVars → InitVars) : AppM QueueHandle :=
  Thread.act fun ok s =>
    if ok then
      let handle := some s.queues.length
      ({ s with queues := s.queues ++ [new], vars := f handle s.vars }, handle)
    else ({ s with vars := f none s.vars }, none)

/-! ## Queues -/

/-- `init_queues`. -/
def initQueues : AppM RtosErr := do
  let queue ← queueCreate (.bmcRx (.create _ _)) fun h v => { v with main.sBmcRxQueue := h }
  if queue = none then return .nomem
  let queue ← queueCreate (.nicEvent (.create _ _)) fun h v => { v with main.sNicEventQueue := h }
  if queue = none then return .nomem
  let queue ← queueCreate (.sensorAlert (.create _ _)) fun h v =>
    { v with main.sSensorAlertQueue := h }
  if queue = none then return .nomem
  let queue ← queueCreate (.flashCmd (.create _ _)) fun h v => { v with main.sFlashCmdQueue := h }
  if queue = none then return .nomem
  return .ok

/-! ## HAL -/

/-- `bmc_hal_init`. -/
def bmcHalInit : AppM RtosErr := do
  -- `i2c_param_config`, `i2c_driver_install`
  if !(← external) then return .fail
  if !(← external) then return .fail
  assign fun s => { s with vars.hal.bmcInitialized := true }
  return .ok

/-- `sensor_hal_init`. -/
def sensorHalInit : AppM RtosErr := do
  -- `i2c_param_config`, `i2c_driver_install`
  if !(← external) then return .fail
  if !(← external) then return .fail
  assign fun s => { s with vars.hal.sensorInitialized := true }
  return .ok

/-- `nic_chip_hal_init`. -/
def nicChipHalInit : AppM RtosErr := do
  -- `spi_bus_initialize`, `spi_bus_add_device`
  if !(← external) then return .fail
  if !(← external) then return .fail
  -- the result of `gpio_config` is not looked at
  let _ ← external
  assign fun s => { s with vars.hal.nicChipInitialized := true }
  return .ok

/-- `init_hal`. -/
def initHal : AppM RtosErr := do
  let err ← bmcHalInit
  if err ≠ .ok then return err
  let err ← sensorHalInit
  if err ≠ .ok then return err
  let err ← nicChipHalInit
  if err ≠ .ok then return err
  return .ok

/-! ## Services -/

/-- `bmc_mgr_init`; `protocol_hdlr_init` and `nic_gen_mgr_init` in it cannot fail. -/
def bmcMgrInit (cfg : TickConfig) (bmcRxQueue nicEventQueue flashCmdQueue : QueueHandle) :
    AppM RtosErr := do
  assign fun s => { s with vars.bmcMgr.sBmcRxQueue := bmcRxQueue }
  assign fun s => { s with vars.bmcMgr.sNicEventQueue := nicEventQueue }
  assign fun s => { s with vars.bmcMgr.sFlashCmdQueue := flashCmdQueue }
  -- `rtos_event_group_create`
  if !(← eventGroupCreate fun ok v => { v with bmcMgr.sEvents := ok }) then return .nomem
  assign fun s => { s with mctp := protocolHdlrInit }
  assign fun s => { s with sel := nicGenMgrInit }
  -- `liveness_update`
  assign fun s => { s with sLastBmcSeenMs := rtosGetTickMs cfg s.ticks }
  return .ok

/-- `sensor_mgr_init`, which leaves the cache `sensorMgrInit`; `sensor_protocol_init` in it cannot
fail. -/
def sensorMgrInitM (alertQueue : QueueHandle) : AppM RtosErr := do
  assign fun s => { s with sCache := sensorMgrInit }
  -- `rtos_mutex_create`
  if !(← externalAssign fun ok v => { v with sensorMgr.sCacheMutex := ok }) then return .nomem
  assign fun s => { s with vars.sensorMgr.sAlertQueue := alertQueue }
  -- `rtos_timer_create`
  if !(← externalAssign fun ok v => { v with sensorMgr.sPollTimer := ok }) then return .nomem
  return .ok

/-- `spi_flash_cmd_init`: the JEDEC ID is read, and not looked at. -/
def spiFlashCmdInitM : AppM RtosErr := do
  -- `nic_chip_hal_spi_transfer`
  if !(← readVars fun v => v.hal.nicChipInitialized) then return .fail
  if !(← external) then return .fail
  return .ok

/-- `nic_flash_mgr_init`, as far as the queue and the flash are concerned. -/
def nicFlashMgrInitM (cmdQueue : QueueHandle) : AppM RtosErr := do
  assign fun s => { s with vars.sCmdQueue := cmdQueue }
  spiFlashCmdInitM

/-- `init_services`. -/
def initServices (cfg : TickConfig) : AppM RtosErr := do
  let err ← bmcMgrInit cfg (← readVars (·.main.sBmcRxQueue)) (← readVars (·.main.sNicEventQueue))
    (← readVars (·.main.sFlashCmdQueue))
  if err ≠ .ok then return err
  let err ← sensorMgrInitM (← readVars (·.main.sSensorAlertQueue))
  if err ≠ .ok then return err
  let err ← nicFlashMgrInitM (← readVars (·.main.sFlashCmdQueue))
  if err ≠ .ok then return err
  return .ok

/-! ## Interrupts -/

/-- `bmc_hal_register_isr`. -/
def bmcHalRegisterIsr : AppM RtosErr := do
  assign fun s => { s with vars.hal.sRxCallback := true }
  return .ok

/-- `nic_chip_hal_register_alert_isr`. -/
def nicChipHalRegisterAlertIsr : AppM RtosErr := do
  -- the results of `gpio_config` and `gpio_install_isr_service` are not looked at
  let _ ← external
  let _ ← external
  -- `gpio_isr_handler_add`
  if !(← externalAssign fun ok v => { v with hal.alertCallback := ok }) then return .fail
  return .ok

/-- `isr_handlers_init`: the results of the two registrations are not looked at. -/
def isrHandlersInit (bmcRxQueue nicEventQueue sensorAlertQueue : QueueHandle) : AppM RtosErr := do
  assign fun s => { s with vars.isr.sBmcRxQueue := bmcRxQueue }
  assign fun s => { s with vars.isr.sNicEventQueue := nicEventQueue }
  assign fun s => { s with vars.isr.sSensorAlertQueue := sensorAlertQueue }
  let _ ← bmcHalRegisterIsr
  let _ ← nicChipHalRegisterAlertIsr
  return .ok

/-- `init_isr`. -/
def initIsr : AppM RtosErr := do
  isrHandlersInit (← readVars (·.main.sBmcRxQueue)) (← readVars (·.main.sNicEventQueue))
    (← readVars (·.main.sSensorAlertQueue))

/-! ## Tasks -/

/-- `rtos_task_create`, with the handle that it assigns. -/
def rtosTaskCreate (f : Bool → InitVars → InitVars) : AppM RtosErr := do
  if !(← externalAssign f) then return .nomem
  return .ok

/-- `create_tasks`. -/
def createTasks : AppM RtosErr := do
  let err ← rtosTaskCreate fun ok v => { v with main.sBmcMgrTask := ok }
  if err ≠ .ok then return err
  let err ← rtosTaskCreate fun ok v => { v with main.sSensorMgrTask := ok }
  if err ≠ .ok then return err
  let err ← rtosTaskCreate fun ok v => { v with main.sFlashMgrTask := ok }
  if err ≠ .ok then return err
  return .ok

/-- `app_main`, with the code that it logs when it gives up. -/
def appMain (cfg : TickConfig) : AppM RtosErr := do
  let err ← initQueues
  if err ≠ .ok then return err
  let err ← initHal
  if err ≠ .ok then return err
  let err ← initServices cfg
  if err ≠ .ok then return err
  let err ← initIsr
  if err ≠ .ok then return err
  let err ← createTasks
  if err ≠ .ok then return err
  return .ok

/-! ## The other parties -/

/-- The steps of the interrupt service routines and the tasks. -/
inductive SystemAction where
  | bmcI2cRxIsr (w : I2cWrite) (msgData : Vector UInt8 smbMaxBlockSize)
  | nicAlertIsr
  | bmcMgrTask (locals : TaskLocals)
  /-- The wait of the BMC Manager runs into its timeout. -/
  | waitTimeout
  /-- The sensor thread stores the record that it has made from a read of the sensor. -/
  | sensorMgrTask (sensorId : Fin maxSensors) (rec : SensorRecord)
  /-- The flash thread, idle, takes a command. -/
  | flashReceive
  /-- The flash thread finishes its command. -/
  | flashFinish
  | clock (ticks : ℕ)

inductive SystemEvent where
  /-- What the machine of the BMC Manager reports. -/
  | fw (e : FwEvent)
  /-- A party used a handle that is NULL, or that points to another queue. -/
  | invalidHandle
  /-- A driver that is not initialised refused a call. -/
  | driverRefused
deriving DecidableEq

namespace System

/-- The queue that a handle points to. -/
def queue (s : System) (handle : QueueHandle) : Option QueueObject := handle.bind (s.queues[·]?)

/-- The system with `object` as the queue that a handle points to. -/
def setQueue (s : System) (handle : QueueHandle) (object : QueueObject) : System :=
  { s with queues := match handle with
      | some i => s.queues.set i object
      | none => s.queues }

/-- What `bmc_mgr_task` works on, through the handles of its module; `none` if one of them is not
valid. -/
def firmware (s : System) : Option Firmware :=
  match s.queue s.vars.bmcMgr.sBmcRxQueue, s.queue s.vars.bmcMgr.sNicEventQueue,
      s.queue s.vars.bmcMgr.sFlashCmdQueue, s.vars.bmcMgr.sEvents && s.vars.sensorMgr.sCacheMutex with
  | some (.bmcRx sBmcRxQueue), some (.nicEvent sNicEventQueue), some (.flashCmd sFlashCmdQueue), true =>
    some
      { phase := s.phase, sBmcRxQueue, sNicEventQueue, sFlashCmdQueue, sEvents := s.sEvents
        mctp := s.mctp, sLastBmcSeenMs := s.sLastBmcSeenMs, sel := s.sel, sCache := s.sCache
        flashTask := s.flashTask, ticks := s.ticks }
  | _, _, _, _ => none

/-- The system after `bmc_mgr_task` has changed what it works on to `fw`. -/
def setFirmware (s : System) (fw : Firmware) : System :=
  let s := s.setQueue s.vars.bmcMgr.sBmcRxQueue (.bmcRx fw.sBmcRxQueue)
  let s := s.setQueue s.vars.bmcMgr.sNicEventQueue (.nicEvent fw.sNicEventQueue)
  let s := s.setQueue s.vars.bmcMgr.sFlashCmdQueue (.flashCmd fw.sFlashCmdQueue)
  { s with
    phase := fw.phase, sEvents := fw.sEvents, mctp := fw.mctp, sLastBmcSeenMs := fw.sLastBmcSeenMs
    sel := fw.sel, sCache := fw.sCache, flashTask := fw.flashTask, ticks := fw.ticks }

/-- What is seen of a step of `bmc_mgr_task`: `bmc_hal_transmit` refuses to transmit before
`bmc_hal_init`. -/
def seen (s : System) (e : FwEvent) : SystemEvent :=
  match e with
  | .transmit .. => if s.vars.hal.bmcInitialized then .fw e else .driverRefused
  | _ => .fw e

end System

/-- The steps of the interrupt service routines, once their callbacks are registered, and of the tasks,
once they are created. -/
def parties (cfg : TickConfig) : Machine System SystemAction SystemEvent where
  step s
    | .bmcI2cRxIsr w msgData =>
      if s.vars.hal.sRxCallback then
        -- `if (s_bmc_rx_queue == NULL) { return; }`
        match s.vars.isr.sBmcRxQueue, s.queue s.vars.isr.sBmcRxQueue with
        | none, _ => some (s, [])
        | handle, some (.bmcRx queue) =>
          let ret := (rtosQueueSendFromIsr queue (bmcI2cRxMsg msgData w).1).1
          match bmcI2cRxIsr (some queue) msgData w with
          | (some queue, _) => some (s.setQueue handle (.bmcRx queue), [.fw (.i2cRx w (ret == .ok))])
          | (none, _) => none
        | _, _ => some (s, [.invalidHandle])
      else none
    | .nicAlertIsr =>
      if s.vars.hal.alertCallback then
        match s.vars.isr.sNicEventQueue, s.queue s.vars.isr.sNicEventQueue with
        | none, _ => some (s, [])
        | handle, some (.nicEvent queue) =>
          let ret := (rtosQueueSendFromIsr queue nicAlertEvent).1
          match nicAlertIsr (some queue) with
          | some queue =>
            some (s.setQueue handle (.nicEvent queue), [.fw (.nicPost nicAlertEvent (ret == .ok))])
          | none => none
        | _, _ => some (s, [.invalidHandle])
      else none
    | .bmcMgrTask locals =>
      if s.vars.main.sBmcMgrTask then
        match s.firmware with
        | some fw => (bmcMgrTask cfg fw locals).map fun r => (s.setFirmware r.1, r.2.map s.seen)
        | none => some (s, [.invalidHandle])
      else none
    | .waitTimeout =>
      if s.vars.main.sBmcMgrTask ∧ s.phase = .wait then
        if s.vars.bmcMgr.sEvents then
          some ({ s with phase := .drainRx, sEvents := s.sEvents.waitTimeout.2 }, [])
        else some (s, [.invalidHandle])
      else none
    | .sensorMgrTask sensorId rec =>
      if s.vars.main.sSensorMgrTask then
        match s.vars.sensorMgr.sPollTimer, s.vars.hal.sensorInitialized, s.vars.sensorMgr.sCacheMutex,
            s.queue s.vars.sensorMgr.sAlertQueue with
        | true, true, true, some (.sensorAlert _) =>
          some ({ s with sCache := sensorCacheStore s.sCache sensorId rec }, [])
        | _, false, _, _ => some (s, [.driverRefused])
        | _, _, _, _ => some (s, [.invalidHandle])
      else none
    | .flashReceive =>
      if s.vars.main.sFlashMgrTask then
        match s.flashTask, s.queue s.vars.sCmdQueue with
        | none, some (.flashCmd queue) =>
          match rtosQueueReceive queue with
          | (.ok, some cmd, queue) =>
            some ({ s.setQueue s.vars.sCmdQueue (.flashCmd queue) with flashTask := some cmd },
              [.fw (.flashReceived cmd)])
          | _ => none
        | none, _ => some (s, [.invalidHandle])
        | some _, _ => none
      else none
    | .flashFinish =>
      if s.vars.main.sFlashMgrTask then
        match s.flashTask with
        | some cmd =>
          if s.vars.hal.nicChipInitialized then
            some ({ s with flashTask := none }, [.fw (.flashFinished cmd)])
          else some (s, [.driverRefused])
        | none => none
      else none
    | .clock ticks => some ({ s with ticks := s.ticks + ticks }, [])

/-- The system from power-up on: `app_main` among the other parties. -/
def system (cfg : TickConfig) :
    Machine (AppM RtosErr × System) (Bool ⊕ SystemAction) SystemEvent :=
  Thread.among (parties cfg)

/-- Some other party can take steps. -/
def System.Started (s : System) : Prop :=
  s.vars.hal.sRxCallback = true ∨ s.vars.hal.alertCallback = true ∨ s.vars.main.sBmcMgrTask = true ∨
    s.vars.main.sSensorMgrTask = true ∨ s.vars.main.sFlashMgrTask = true

instance (s : System) : Decidable s.Started := inferInstanceAs (Decidable (_ ∨ _))

end NicObFw
