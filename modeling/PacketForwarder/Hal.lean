import PacketForwarder.Lib.Binary64
import PacketForwarder.Lib.Slots

/-!
# What the forwarder takes from outside

The types the forwarder shares with the concentrator's HAL and with the C
library: the fixed-width integers, strings, `struct lgw_pkt_tx_s` with every field
the forwarder sets or reads, `struct timeval` and `struct timespec`, the GPS time
reference `struct tref` and the TX gain table.

The HAL's numeric constants (`MOD_LORA`, `BW_125KHZ`, `DR_LORA_SF7`, …) are
enumerations here; `memset(.., 0, ..)` gives the `undefined` ones.
-/

namespace PacketForwarder

/-- `uint8_t` (and `int8_t`, which shares its bits). -/
abbrev U8 := BitVec 8

/-- `uint16_t`. -/
abbrev U16 := BitVec 16

/-- `uint32_t`. -/
abbrev U32 := BitVec 32

/-- The bytes of a C string, without the terminator. -/
abbrev CString := List U8

/-- A string literal of the source, as its bytes. -/
def cstr (s : String) : CString := s.toList.map fun c => BitVec.ofNat 8 c.toNat

/-- `tx_mode` of a packet. -/
inductive TxMode
  | immediate
  | timestamped
  | onGps
  deriving DecidableEq, Repr

/-- `modulation` of a packet. -/
inductive Modulation
  | undefined
  | lora
  | fsk
  deriving DecidableEq, Repr

/-- `bandwidth` of a packet. -/
inductive Bandwidth
  | undefined
  | bw125kHz
  | bw250kHz
  | bw500kHz
  deriving DecidableEq, Repr

/-- `datarate` of a packet: a LoRa spreading factor, or a number of bits per second. -/
inductive Datarate
  | loraSf7
  | loraSf8
  | loraSf9
  | loraSf10
  | loraSf11
  | loraSf12
  | bps (rate : U32)
  deriving DecidableEq, Repr

/-- `coderate` of a packet. -/
inductive Coderate
  | undefined
  | lora4_5
  | lora4_6
  | lora4_7
  | lora4_8
  deriving DecidableEq, Repr

/-- `sizeof txpkt.payload`. -/
@[simp] abbrev payloadMax : ℕ := 256

/-- `struct lgw_pkt_tx_s`. -/
structure LgwPktTx where
  freqHz : U32
  txMode : TxMode
  /-- Departure, as a value of the concentrator's microsecond counter. -/
  countUs : U32
  rfChain : U8
  /-- `int8_t`, in dBm. -/
  rfPower : U8
  modulation : Modulation
  bandwidth : Bandwidth
  datarate : Datarate
  coderate : Coderate
  invertPol : Bool
  /-- Frequency deviation in kHz (FSK only). -/
  fDev : U8
  preamble : U16
  noCrc : Bool
  noHeader : Bool
  size : U16
  payload : Slots U8 payloadMax
  deriving DecidableEq

/-- A packet after `memset(&pkt, 0, sizeof pkt)`. -/
def LgwPktTx.zero : LgwPktTx where
  freqHz := 0
  txMode := .immediate
  countUs := 0
  rfChain := 0
  rfPower := 0
  modulation := .undefined
  bandwidth := .undefined
  datarate := .bps 0
  coderate := .undefined
  invertPol := false
  fDev := 0
  preamble := 0
  noCrc := false
  noHeader := false
  size := 0
  payload := .replicate payloadMax 0

/-- `struct timeval`. -/
structure Timeval where
  tvSec : ℤ
  tvUsec : ℤ
  deriving DecidableEq, Repr

/-- The instant in microseconds. -/
def Timeval.us (t : Timeval) : ℤ := t.tvSec * 1000000 + t.tvUsec

/-- `uint32_t time_us = time->tv_sec * 1000000UL + time->tv_usec`. -/
def Timeval.lowUs (t : Timeval) : U32 := BitVec.ofInt 32 t.us

/-- `struct timespec`. -/
structure Timespec where
  tvSec : ℤ
  tvNsec : ℤ
  deriving DecidableEq, Repr

/-- `struct tref`: a count of the concentrator and the times that belong to it. -/
structure Tref where
  systime : ℤ
  countUs : U32
  utc : Timespec
  /-- GPS time: the seconds since the GPS epoch. -/
  gps : Timespec
  xtalErr : Binary64
  deriving DecidableEq

/-- `LGW_RF_CHAIN_NB`. -/
@[simp] abbrev lgwRfChainNb : ℕ := 2

/-- `TX_GAIN_LUT_SIZE_MAX`. -/
@[simp] abbrev txGainLutSizeMax : ℕ := 16

/-- `struct lgw_tx_gain_s`. -/
structure LgwTxGain where
  /-- `int8_t`, in dBm. -/
  rfPower : U8
  deriving DecidableEq

/-- `struct lgw_tx_gain_lut_s`. -/
structure LgwTxGainLut where
  lut : Slots LgwTxGain txGainLutSizeMax
  size : U8

/-- `lgw_gps2cnt` of the HAL: the count at a GPS time, if it succeeds. -/
abbrev Gps2cnt : Type := Tref → Timespec → Option U32

end PacketForwarder
