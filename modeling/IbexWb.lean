import IbexWb.Rtl.Core2wb
import IbexWb.Synchronous.Events
import IbexWb.Synchronous.Loop
import IbexWb.Rtl.Wb2core
import IbexWb.Soc.SharedBus
import IbexWb.Soc.AddressMap
import IbexWb.Soc.Slaves
import IbexWb.Soc.System
import IbexWb.Verified.Timing
import IbexWb.Verified.GrantLaw
import IbexWb.Soc.IbexSoc
import IbexWb.Verified.UnmappedRequests
import IbexWb.Verified.PriorityIsolation
import IbexWb.Verified.OutstandingRequests
import IbexWb.Verified.ResponseFlag
import IbexWb.Verified.StallRouting
import IbexWb.Verified.HoldPreservation
import IbexWb.Verified.ResponseRouting
import IbexWb.Memory.Bytes
import IbexWb.Soc.RamLed
import IbexWb.Verified.SequentialDevice
import IbexWb.Verified.Refinement
import IbexWb.Memory.AlignedRegion
import IbexWb.Soc.Xbar
import IbexWb.Verified.Transparency
import IbexWb.Verified.Decoding
import IbexWb.Riscv.Machine
import IbexWb.Sw.Crt0
import IbexWb.Verified.ClearBss
import IbexWb.Jtag.Driver
import IbexWb.Jtag.SimMain
import IbexWb.Verified.JtagDelivery
import IbexWb.Memory.Writes
import IbexWb.Scripts.Converters
import IbexWb.Scripts.Readers
import IbexWb.Scripts.Records
import IbexWb.Verified.ImageText
import IbexWb.Verified.ImageStores
import IbexWb.Verified.ImageConverters
import IbexWb.Rtl.Checker
import IbexWb.Verified.PortChecks
import IbexWb.Verified.BoundedWaiting
import IbexWb.Soc.Crg
import IbexWb.Synchronous.Levels
import IbexWb.Verified.ResetRelease
import IbexWb.Binary.ByteField
import IbexWb.Cipher.Aes
import IbexWb.Sw.NettleAes
import IbexWb.Verified.AesBlocks
import IbexWb.Verified.AesKeys
import IbexWb.Verified.AesCipher
import IbexWb.Binary.Lfsr
import IbexWb.Binary.Remainder
import IbexWb.Sw.Beebsc
import IbexWb.Sw.Crc32
import IbexWb.Verified.CrcRemainder
import IbexWb.Jtag.DebugDefs
import IbexWb.Jtag.Registers
import IbexWb.Verified.JtagScans
import IbexWb.Verified.StartUp
import IbexWb.Memory.ObjectStore
import IbexWb.Verified.BeebscHeap
import IbexWb.Binary.Congruential
import IbexWb.Verified.BeebscRandom
import IbexWb.Verified.BootImage
import IbexWb.Sw.Led
import IbexWb.Verified.Blink
import IbexWb.Verified.Delay
