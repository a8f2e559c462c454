import NicObFw.Proofs.ReceivePathProofs
import NicObFw.Proofs.MctpGrammarProofs
import NicObFw.BmcMgr
import NicObFw.Proofs.BmcMgrProofs
import NicObFw.Proofs.WakeupProofs
import NicObFw.Proofs.LostFragmentProofs
import NicObFw.Proofs.SenderProofs
import NicObFw.Lib.Traced
import NicObFw.Lib.NorFlash
import NicObFw.NicChipHal
import NicObFw.SpiFlashCmd
import NicObFw.NicFlashMgr
import NicObFw.Proofs.SpiFlashProofs
import NicObFw.FlashDevice
import NicObFw.Proofs.FlashDeviceProofs
import NicObFw.Proofs.StagingLegalProofs
import NicObFw.Proofs.StagingFrameProofs
import NicObFw.Proofs.StagingImageProofs
import NicObFw.Proofs.FlashBusyProofs
import NicObFw.Answers
import NicObFw.Proofs.DispatchProofs
import NicObFw.UpdateHandoff
import NicObFw.Proofs.AnswerProofs
import NicObFw.Proofs.UpdateHandoffProofs
import NicObFw.Proofs.AddressProofs
import NicObFw.Proofs.UninitialisedProofs
import NicObFw.EventLog
import NicObFw.Proofs.SelProofs
import NicObFw.Proofs.SilenceProofs
import NicObFw.Proofs.DrainOrderProofs
import NicObFw.Proofs.SensorMgrProofs
import NicObFw.Proofs.SensorCacheProofs
import NicObFw.Proofs.SensorReadsProofs
import NicObFw.Proofs.SensorHealthProofs
import NicObFw.Proofs.TransmitProofs
import NicObFw.FlashClock
import NicObFw.Proofs.WaitReadyProofs
import NicObFw.Proofs.StagingFailureProofs
import NicObFw.Proofs.UpdateStateProofs
import NicObFw.Proofs.FlashReadProofs
import NicObFw.Proofs.SensorIdentityProofs
import NicObFw.Lib.Narrowing
import NicObFw.Proofs.CalibrationProofs
import NicObFw.Lib.BitPolynomial
import NicObFw.Lib.Crc
import NicObFw.Crc32
import NicObFw.Proofs.Crc32Proofs
import NicObFw.Liveness
import NicObFw.Proofs.LivenessProofs
import NicObFw.CriticalSection
import NicObFw.Proofs.CriticalSectionProofs
import NicObFw.PollAllSensors
import NicObFw.Proofs.PollAllSensorsProofs
import NicObFw.FlashSystem
import NicObFw.Lib.Response
import NicObFw.Proofs.FlashSystemProofs
import NicObFw.Proofs.ReadBackProofs
import NicObFw.Proofs.SensorMgrTaskProofs
import NicObFw.Proofs.BmcProgressProofs
import NicObFw.Proofs.CacheMutexProofs
import NicObFw.Proofs.PollAloneProofs
import NicObFw.AppMain
import NicObFw.FineFirmware
import NicObFw.Proofs.AppMainProofs
import NicObFw.Proofs.FineFirmwareProofs
import NicObFw.Proofs.StagingPlanProofs
import NicObFw.Proofs.ReadingAnswerProofs
import NicObFw.Proofs.WaitingBmcProofs
