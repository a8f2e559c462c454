import NicObFw.Lib.FreeRtos

/-!
# RTOS abstraction layer

The wrappers of `rtos_hal.c` around FreeRTOS. Those around queues map the FreeRTOS result to an
`rtos_err_t`; their callers here pass `RTOS_NO_WAIT` or run in an ISR, so no call blocks.
-/

namespace NicObFw

/-- `rtos_err_t`. -/
inductive RtosErr where
  | ok
  | timeout
  | full
  | empty
  | nomem
  | fail
deriving DecidableEq, Repr

variable {α : Type*} {depth : ℕ}

/-- `rtos_queue_send` with `RTOS_NO_WAIT`. -/
def rtosQueueSend (queue : FreeRtos.Queue α depth) (item : α) : RtosErr × FreeRtos.Queue α depth :=
  let (ret, queue) := queue.send item
  (if ret then .ok else .full, queue)

/-- `rtos_queue_send_from_isr`: the same mapping of the result. -/
def rtosQueueSendFromIsr (queue : FreeRtos.Queue α depth) (item : α) :
    RtosErr × FreeRtos.Queue α depth :=
  rtosQueueSend queue item

/-- `rtos_queue_receive` with `RTOS_NO_WAIT`: the item received when the code is `RTOS_OK`. -/
def rtosQueueReceive (queue : FreeRtos.Queue α depth) :
    RtosErr × Option α × FreeRtos.Queue α depth :=
  match queue.receive with
  | (some item, queue) => (.ok, some item, queue)
  | (none, queue) => (.timeout, none, queue)

/-! ## Event groups -/

/-- `rtos_event_group_wait`, as far as it does not time out: `none` while the caller is blocked. -/
def rtosEventGroupWait (group : FreeRtos.EventGroup) (bitsToWait : UInt32)
    (clearOnExit waitAll : Bool) : Option (UInt32 × FreeRtos.EventGroup) :=
  group.waitBits bitsToWait clearOnExit waitAll

/-! ## Utility -/

/-- The tick configuration of FreeRTOS. -/
structure TickConfig where
  portTickPeriodMs : UInt32
  configTickRateHz : UInt32

/-- `pdMS_TO_TICKS`. -/
def pdMsToTicks (cfg : TickConfig) (ms : UInt32) : UInt32 := ms * cfg.configTickRateHz / 1000

/-- `rtos_get_tick_ms`; `xTaskGetTickCount` is the number of ticks since boot, as a 32-bit counter
shows it. -/
def rtosGetTickMs (cfg : TickConfig) (ticks : ℕ) : UInt32 :=
  UInt32.ofNat ticks * cfg.portTickPeriodMs

end NicObFw
