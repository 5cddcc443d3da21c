import Libtock.Drivers.SyncCall

/-!
# The synchronous functions of the drivers

Each is a `SyncCall`, under the name of the C function. A pointer that may be `NULL` is an
`Option Ptr`; the other pointers a caller passes are valid.
-/

namespace Drivers

open Tock

abbrev U8 := BitVec 8

abbrev U16 := BitVec 16

/-- The low 16 bits. -/
def low16 (v : U32) : U32 := v &&& 0xFFFF

/-- Returns `RETURNCODE_SUCCESS`, and stores one of the arguments of the callback. -/
def stores (value : UpcallArgs → U32) (args : UpcallArgs) : ℤ × List U32 :=
  (returncodeSuccess, [value args])

/-- Returns `RETURNCODE_SUCCESS` and stores nothing. -/
def done (_ : UpcallArgs) : ℤ × List U32 := (returncodeSuccess, [])

/-! ### Sensors -/

def driverNumAmbientLight : U32 := 0x60002

def ambientLightReadIntensitySync : SyncCall where
  driver := driverNumAmbientLight
  storage := .onStack
  command := 1
  finish := stores UpcallArgs.arg0

def driverNumTemperature : U32 := 0x60000

def temperatureReadSync : SyncCall where
  driver := driverNumTemperature
  storage := .static
  command := 1
  finish := stores UpcallArgs.arg0

def driverNumHumidity : U32 := 0x60001

def humidityReadSync : SyncCall where
  driver := driverNumHumidity
  storage := .static
  command := 1
  finish := stores UpcallArgs.arg0

def driverNumProximity : U32 := 0x60005

/-- `struct thresholds` -/
structure Thresholds where
  lowerThreshold : U8
  higherThreshold : U8
  deriving DecidableEq

/-- The value is stored as a `uint8_t`. -/
def proximityReadSync : SyncCall where
  driver := driverNumProximity
  storage := .static
  command := 1
  finish := stores fun args => args.arg0 &&& 0xFF

def proximityReadOnInterruptSync (threshes : Thresholds) : SyncCall where
  driver := driverNumProximity
  storage := .static
  command := 2
  arg1 := threshes.lowerThreshold.setWidth 32
  arg2 := threshes.higherThreshold.setWidth 32
  finish := stores fun args => args.arg0 &&& 0xFF

def driverNumSoundPressure : U32 := 0x60006

def soundPressureReadSync : SyncCall where
  driver := driverNumSoundPressure
  storage := .static
  command := 1
  finish := stores fun args => args.arg0 &&& 0xFF

def driverNumTsl2561 : U32 := 0x70000

def tsl2561GetLuxSync : SyncCall where
  driver := driverNumTsl2561
  storage := .static
  command := 1
  finish := stores UpcallArgs.arg1

def driverNumLps25hb : U32 := 0x70004

def lps25hbGetPressureSync : SyncCall where
  driver := driverNumLps25hb
  storage := .static
  command := 1
  finish := stores UpcallArgs.arg0

def driverNumNinedof : U32 := 0x60004

/-- The functions of `ninedof.c` that read three axes. -/
def ninedofReadSync (command : U32) : SyncCall where
  driver := driverNumNinedof
  storage := .static
  command := command
  finish args := (returncodeSuccess, [args.arg0, args.arg1, args.arg2])

def ninedofReadAccelerationSync : SyncCall := ninedofReadSync 1

def ninedofReadMagnetometerSync : SyncCall := ninedofReadSync 100

def ninedofReadGyroscopeSync : SyncCall := ninedofReadSync 200

def driverNumL3gd20 : U32 := 0x70005

/-- The functions of `l3gd20.c` that configure the sensor. -/
def l3gd20Configure (command arg1 arg2 : U32) : SyncCall where
  driver := driverNumL3gd20
  storage := .onStack
  command := command
  arg1 := arg1
  arg2 := arg2
  finish := done

def l3gd20PowerOn : SyncCall := l3gd20Configure 2 0 0

def l3gd20SetScale (scale : U8) : SyncCall :=
  l3gd20Configure 3 (if scale > 2 then 2 else scale.setWidth 32) 0

def l3gd20EnableHpf (enabled : Bool) : SyncCall := l3gd20Configure 4 (if enabled then 1 else 0) 0

def l3gd20SetHpfParameters (mode divider : U8) : SyncCall :=
  l3gd20Configure 5 (mode.setWidth 32) (divider.setWidth 32)

def l3gd20ReadTemperature (temperature : Option Ptr) : SyncCall where
  driver := driverNumL3gd20
  storage := .onStack
  command := 7
  finish args := (returncodeSuccess, if temperature.isSome then [args.arg0] else [])

/-! ### Battery gauges -/

def driverNumLtc294x : U32 := 0x80000

/-- `ltc294x_model_e` -/
inductive Ltc294xModel
  | ltc2941
  | ltc2942
  | ltc2943
  deriving DecidableEq

def Ltc294xModel.toU32 : Ltc294xModel → U32
  | ltc2941 => 1
  | ltc2942 => 2
  | ltc2943 => 3

/-- `interrupt_pin_conf_e` -/
inductive InterruptPinConf
  | disabled
  | chargeCompleteMode
  | alertMode
  deriving DecidableEq

def InterruptPinConf.toU8 : InterruptPinConf → U8
  | disabled => 0
  | chargeCompleteMode => 1
  | alertMode => 2

/-- The `M` of `ltc294x_configure`. -/
def ltc294xM (model : Ltc294xModel) (prescaler : U16) : U8 :=
  match model with
  | .ltc2941 | .ltc2942 =>
    (List.range 8).foldl (fun m i => if prescaler.getLsbD i then BitVec.ofNat 8 i else m) 0
  | .ltc2943 =>
    if prescaler = 1 then 0
    else if prescaler = 4 then 1
    else if prescaler = 16 then 2
    else if prescaler = 64 then 3
    else if prescaler = 256 then 4
    else if prescaler = 1024 then 5
    else if prescaler = 4096 then 7
    else 4

/-- The `cmd` of `ltc294x_configure`. -/
def ltc294xCmd (intPin : InterruptPinConf) (m vbat : U8) : U8 :=
  (intPin.toU8 &&& 0x03) ||| ((m &&& 0x07) <<< 2) ||| ((vbat &&& 0x03) <<< 5)

/-- The functions of `ltc294x.c` that store nothing. -/
def ltc294xWrite (command arg1 : U32) : SyncCall where
  driver := driverNumLtc294x
  storage := .static
  command := command
  arg1 := arg1
  finish := done

/-- The functions of `ltc294x.c` that store a value. -/
def ltc294xGet (command : U32) : SyncCall where
  driver := driverNumLtc294x
  storage := .static
  command := command
  finish := stores UpcallArgs.arg1

def ltc294xReadStatusSync : SyncCall := ltc294xWrite 1 0

/-- It sets the model first. -/
def ltc294xConfigureSync (model : Ltc294xModel) (intPin : InterruptPinConf) (prescaler : U16)
    (vbat : U8) : SyncCall where
  driver := driverNumLtc294x
  storage := .static
  setup := [⟨10, model.toU32⟩]
  command := 2
  arg1 := (ltc294xCmd intPin (ltc294xM model prescaler) vbat).setWidth 32
  finish := done

def ltc294xResetChargeSync : SyncCall := ltc294xWrite 3 0

def ltc294xSetHighThresholdSync (threshold : U16) : SyncCall :=
  ltc294xWrite 4 (threshold.setWidth 32)

def ltc294xSetLowThresholdSync (threshold : U16) : SyncCall :=
  ltc294xWrite 5 (threshold.setWidth 32)

def ltc294xGetChargeSync : SyncCall := ltc294xGet 6

def ltc294xShutdownSync : SyncCall := ltc294xWrite 7 0

def ltc294xGetVoltageSync : SyncCall := ltc294xGet 8

def ltc294xGetCurrentSync : SyncCall := ltc294xGet 9

def driverNumMax17205 : U32 := 0x80001

/-- The functions of `max17205.c`: the callback has a status and two values. -/
def max17205Read (command : U32) (values : U32 → U32 → List U32) : SyncCall where
  driver := driverNumMax17205
  storage := .static
  command := command
  finish args := (statusToReturncode args.arg0, values args.arg1 args.arg2)

def max17205ReadStatusSync : SyncCall := max17205Read 1 fun value0 _ => [low16 value0]

def max17205ReadSocSync : SyncCall :=
  max17205Read 2 fun value0 value1 => [low16 value0, low16 (value1 >>> 16), low16 value1]

def max17205ReadVoltageCurrentSync : SyncCall :=
  max17205Read 3 fun value0 value1 => [low16 value0, low16 value1]

def max17205ReadCoulombSync : SyncCall := max17205Read 4 fun value0 _ => [low16 value0]

/-- `rom_id` has eight bytes, the lower word first. -/
def max17205ReadRomIdSync : SyncCall := max17205Read 5 fun value0 value1 => [value1, value0]

/-! ### Buses -/

def driverNumPca9544a : U32 := 0x80002

/-- The functions of `pca9544a.c` that store nothing. -/
def pca9544aWrite (command arg1 : U32) : SyncCall where
  driver := driverNumPca9544a
  storage := .static
  command := command
  arg1 := arg1
  finish := done

/-- The functions of `pca9544a.c` that store a value. -/
def pca9544aRead (command : U32) : SyncCall where
  driver := driverNumPca9544a
  storage := .static
  command := command
  finish := stores UpcallArgs.arg0

def pca9544aSelectChannelsSync (channels : U32) : SyncCall := pca9544aWrite 1 channels

def pca9544aDisableAllChannelsSync : SyncCall := pca9544aWrite 2 0

def pca9544aReadInterruptsSync : SyncCall := pca9544aRead 3

def pca9544aReadSelectedSync : SyncCall := pca9544aRead 4

def driverNumI2cMasterSlave : U32 := 0x20006

/-- The functions of `i2c_master_slave.c` that wait. -/
def i2cMasterSlaveSync (command a : U32) : SyncCall where
  driver := driverNumI2cMasterSlave
  storage := .static
  command := command
  arg1 := a
  finish := stores UpcallArgs.arg1

def i2cMasterSlaveWriteSync (address len : U8) : SyncCall :=
  i2cMasterSlaveSync 1 ((len.setWidth 32 <<< 16) ||| address.setWidth 32)

def i2cMasterSlaveWriteReadSync (address wlen rlen : U8) : SyncCall :=
  i2cMasterSlaveSync 7
    ((wlen.setWidth 32 <<< 16) ||| (rlen.setWidth 32 <<< 8) ||| address.setWidth 32)

def i2cMasterSlaveReadSync (address len : U16) : SyncCall :=
  i2cMasterSlaveSync 2 ((len.setWidth 32 <<< 16) ||| address.setWidth 32)

def driverNumSpi : U32 := 0x20001

def spiPeripheral : U32 := 0x20002

/-- What `spi.c` and `spi_peripheral.c` have in common. -/
def spiTransfer (driver command : U32) (shares : List Share) (len : U32) : SyncCall where
  driver := driver
  storage := .onStack
  shares := shares
  command := command
  arg1 := len
  finish := done

def spiWriteSync (write : Ptr) (len : U32) : SyncCall :=
  spiTransfer driverNumSpi 2 [⟨false, 0, ⟨some write, len⟩⟩] len

def spiReadWriteSync (write read : Ptr) (len : U32) : SyncCall :=
  spiTransfer driverNumSpi 2 [⟨true, 0, ⟨some read, len⟩⟩, ⟨false, 0, ⟨some write, len⟩⟩] len

def spiPeripheralWriteSync (write : Ptr) (len : U32) : SyncCall :=
  spiTransfer spiPeripheral 1 [⟨false, 0, ⟨some write, len⟩⟩] len

def spiPeripheralReadWriteSync (write read : Ptr) (len : U32) : SyncCall :=
  spiTransfer spiPeripheral 1 [⟨true, 0, ⟨some read, len⟩⟩, ⟨false, 0, ⟨some write, len⟩⟩] len

/-! ### Other devices -/

def driverNumRng : U32 := 0x40001

/-- The flag is cleared just before the command. -/
def rngSync (buf : Ptr) (len num : U32) : SyncCall where
  driver := driverNumRng
  storage := .static
  shares := [⟨true, 0, ⟨some buf, len⟩⟩]
  command := 1
  arg1 := num
  resetAfter := 2
  finish := stores UpcallArgs.arg1

def buzzerDriver : U32 := 0x90000

def toneSync (frequencyHz durationMs : U32) : SyncCall where
  driver := buzzerDriver
  storage := .onStack
  command := 1
  arg1 := frequencyHz
  arg2 := durationMs
  finish := done

def driverNumUsb : U32 := 0x20005

def usbEnableAndAttach : SyncCall where
  driver := driverNumUsb
  storage := .onStack
  command := 1
  finish args := (statusToReturncode args.arg0, [])

/-! ### All of them -/

inductive Call
  | ambientLightReadIntensity
  | temperatureRead
  | humidityRead
  | proximityRead
  | proximityReadOnInterrupt (threshes : Thresholds)
  | soundPressureRead
  | tsl2561GetLux
  | lps25hbGetPressure
  | ninedofReadAcceleration
  | ninedofReadMagnetometer
  | ninedofReadGyroscope
  | l3gd20PowerOn
  | l3gd20SetScale (scale : U8)
  | l3gd20EnableHpf (enabled : Bool)
  | l3gd20SetHpfParameters (mode divider : U8)
  | l3gd20ReadTemperature (temperature : Option Ptr)
  | ltc294xReadStatus
  | ltc294xConfigure (model : Ltc294xModel) (intPin : InterruptPinConf) (prescaler : U16)
      (vbat : U8)
  | ltc294xResetCharge
  | ltc294xSetHighThreshold (threshold : U16)
  | ltc294xSetLowThreshold (threshold : U16)
  | ltc294xGetCharge
  | ltc294xShutdown
  | ltc294xGetVoltage
  | ltc294xGetCurrent
  | max17205ReadStatus
  | max17205ReadSoc
  | max17205ReadVoltageCurrent
  | max17205ReadCoulomb
  | max17205ReadRomId
  | pca9544aSelectChannels (channels : U32)
  | pca9544aDisableAllChannels
  | pca9544aReadInterrupts
  | pca9544aReadSelected
  | i2cMasterSlaveWrite (address len : U8)
  | i2cMasterSlaveWriteRead (address wlen rlen : U8)
  | i2cMasterSlaveRead (address len : U16)
  | spiWrite (write : Ptr) (len : U32)
  | spiReadWrite (write read : Ptr) (len : U32)
  | spiPeripheralWrite (write : Ptr) (len : U32)
  | spiPeripheralReadWrite (write read : Ptr) (len : U32)
  | rng (buf : Ptr) (len num : U32)
  | tone (frequencyHz durationMs : U32)
  | usbEnableAndAttach
  deriving DecidableEq

def Call.sync : Call → SyncCall
  | ambientLightReadIntensity => ambientLightReadIntensitySync
  | temperatureRead => temperatureReadSync
  | humidityRead => humidityReadSync
  | proximityRead => proximityReadSync
  | proximityReadOnInterrupt threshes => proximityReadOnInterruptSync threshes
  | soundPressureRead => soundPressureReadSync
  | tsl2561GetLux => tsl2561GetLuxSync
  | lps25hbGetPressure => lps25hbGetPressureSync
  | ninedofReadAcceleration => ninedofReadAccelerationSync
  | ninedofReadMagnetometer => ninedofReadMagnetometerSync
  | ninedofReadGyroscope => ninedofReadGyroscopeSync
  | l3gd20PowerOn => Drivers.l3gd20PowerOn
  | l3gd20SetScale scale => Drivers.l3gd20SetScale scale
  | l3gd20EnableHpf enabled => Drivers.l3gd20EnableHpf enabled
  | l3gd20SetHpfParameters mode divider => Drivers.l3gd20SetHpfParameters mode divider
  | l3gd20ReadTemperature temperature => Drivers.l3gd20ReadTemperature temperature
  | ltc294xReadStatus => ltc294xReadStatusSync
  | ltc294xConfigure model intPin prescaler vbat =>
    ltc294xConfigureSync model intPin prescaler vbat
  | ltc294xResetCharge => ltc294xResetChargeSync
  | ltc294xSetHighThreshold threshold => ltc294xSetHighThresholdSync threshold
  | ltc294xSetLowThreshold threshold => ltc294xSetLowThresholdSync threshold
  | ltc294xGetCharge => ltc294xGetChargeSync
  | ltc294xShutdown => ltc294xShutdownSync
  | ltc294xGetVoltage => ltc294xGetVoltageSync
  | ltc294xGetCurrent => ltc294xGetCurrentSync
  | max17205ReadStatus => max17205ReadStatusSync
  | max17205ReadSoc => max17205ReadSocSync
  | max17205ReadVoltageCurrent => max17205ReadVoltageCurrentSync
  | max17205ReadCoulomb => max17205ReadCoulombSync
  | max17205ReadRomId => max17205ReadRomIdSync
  | pca9544aSelectChannels channels => pca9544aSelectChannelsSync channels
  | pca9544aDisableAllChannels => pca9544aDisableAllChannelsSync
  | pca9544aReadInterrupts => pca9544aReadInterruptsSync
  | pca9544aReadSelected => pca9544aReadSelectedSync
  | i2cMasterSlaveWrite address len => i2cMasterSlaveWriteSync address len
  | i2cMasterSlaveWriteRead address wlen rlen => i2cMasterSlaveWriteReadSync address wlen rlen
  | i2cMasterSlaveRead address len => i2cMasterSlaveReadSync address len
  | spiWrite write len => spiWriteSync write len
  | spiReadWrite write read len => spiReadWriteSync write read len
  | spiPeripheralWrite write len => spiPeripheralWriteSync write len
  | spiPeripheralReadWrite write read len => spiPeripheralReadWriteSync write read len
  | rng buf len num => rngSync buf len num
  | tone frequencyHz durationMs => toneSync frequencyHz durationMs
  | usbEnableAndAttach => Drivers.usbEnableAndAttach

/-- Each of them makes its system calls in order, and waits if none fails: its callback is subscribed
then, and its command was accepted. Else it returns the code of the first one that fails, which is the
last one it makes. -/
theorem call_waits_as_promised (c : Call) (n : ℕ) (k : Kernel) :
    Performs c.sync n k ((c.sync.program n).run k) ∧
      WaitsAsPromised ((c.sync.program n).run k) ∧
      (((c.sync.program n).run k).1.isWaiting = true →
        ∀ s, Waiting c.sync n s ((c.sync.program n).run k).2) := by
  have hperforms := program_performs c.sync n k
  refine ⟨hperforms, waitsAsPromised_checked _ _ _ _ _ _ _, fun hwaits s => ?_⟩
  generalize (c.sync.program n).run k = result at hperforms hwaits ⊢
  cases hperforms with
  | waits hall => exact waiting_of_forall hall s
  | fails => cases hwaits

end Drivers
