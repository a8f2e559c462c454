import NicObFw.ProtocolHdlr

/-!
# The transmit path

The whole of `protocol_hdlr_send_response`, with the call of `bmc_hal_transmit` that ends it. The I2C
driver is not part of the repository: what `i2c_slave_write_buffer` returns is a parameter.
-/

namespace NicObFw

open Memory

/-- The private state of `bmc_hal.c`, and the result of `i2c_slave_write_buffer` on a buffer of the
given length. -/
structure BmcHal where
  sInitialized : Bool
  i2cSlaveWriteBuffer : List UInt8 → UInt16 → Int

/-- `bmc_hal_transmit`. -/
def bmcHalTransmit (hal : BmcHal) (data : List UInt8) (length : UInt16) : RtosErr :=
  if !hal.sInitialized then .fail
  else
    let written := hal.i2cSlaveWriteBuffer data length
    if written > 0 then .ok else .fail

/-- What `protocol_hdlr_send_response` returns: `pldm_build_response` and `mctp_frame_tx` always
return `RTOS_OK`, so it is what `bmc_hal_transmit` returns. -/
def sendResponseErr (hal : BmcHal) (request : PldmMsg) (respData : Option (List UInt8))
    (respLen : UInt16) (completionCode : UInt8) (locals : SendLocals) : RtosErr :=
  let (txBuf, txLen, _) := protocolHdlrSendResponse request respData respLen completionCode locals
  bmcHalTransmit hal (load txBuf 0 txLen.toNat) txLen

/-- The framing of a response stays inside its objects: no access leaves `mctp_resp.payload`, `tx_buf`
or the response data, and the length handed to the driver is that of a block at most, unless the
call returns an error. -/
structure SendsInBounds (hal : BmcHal) (request : PldmMsg) (respData : Option (List UInt8))
    (respLen : UInt16) (completionCode : UInt8) (locals : SendLocals) : Prop where
  accesses : AllInBounds TxArray.size
    (protocolHdlrSendResponse request respData respLen completionCode locals).2.2
  length : (protocolHdlrSendResponse request respData respLen completionCode locals).2.1.toNat ≤
      smbMaxBlockSize ∨
    sendResponseErr hal request respData respLen completionCode locals ≠ .ok

end NicObFw
