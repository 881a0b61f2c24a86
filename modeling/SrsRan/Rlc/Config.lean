import Mathlib

/-!
Fields and constants shared by the RLC entities (`rlc_config.h`): the
sequence number sizes, the cardinality of an SN space and the window size
derived from it, and the two-bit SI and one-bit D/C header fields.
-/

namespace SrsRan.Rlc

/-- `rlc_am_sn_size`. -/
inductive RlcAmSnSize
  | size12bits
  | size18bits
  deriving DecidableEq, Repr

/-- `rlc_um_sn_size`. -/
inductive RlcUmSnSize
  | size6bits
  | size12bits
  deriving DecidableEq, Repr

def RlcAmSnSize.toNumber : RlcAmSnSize → Nat
  | .size12bits => 12
  | .size18bits => 18

def RlcUmSnSize.toNumber : RlcUmSnSize → Nat
  | .size6bits => 6
  | .size12bits => 12

/-- `cardinality`: the number of values of an `snSize`-bit sequence number. -/
def cardinality (snSize : Nat) : Nat := 2 ^ snSize

/-- `window_size`: `AM_Window_Size` and `UM_Window_Size`, half the SN space. -/
def windowSize (snSize : Nat) : Nat := cardinality (snSize - 1)

/-- `rlc_si_field`, with the values `0b00`, `0b01`, `0b10`, `0b11`. -/
inductive RlcSiField
  | fullSdu
  | firstSegment
  | lastSegment
  | middleSegment
  deriving DecidableEq, Repr

def RlcSiField.toNumber : RlcSiField → Nat
  | .fullSdu => 0
  | .firstSegment => 1
  | .lastSegment => 2
  | .middleSegment => 3

/-- The cast `(rlc_si_field)(x & 0x03)` of a header read. -/
def RlcSiField.ofNumber (x : Nat) : RlcSiField :=
  match x % 4 with
  | 0 => .fullSdu
  | 1 => .firstSegment
  | 2 => .lastSegment
  | _ => .middleSegment

/-- `rlc_dc_field`. -/
inductive RlcDcField
  | control
  | data
  deriving DecidableEq, Repr

def RlcDcField.toNumber : RlcDcField → Nat
  | .control => 0
  | .data => 1

@[simp] theorem RlcSiField.ofNumber_toNumber (si : RlcSiField) :
    RlcSiField.ofNumber si.toNumber = si := by
  cases si <;> rfl

theorem RlcSiField.toNumber_lt (si : RlcSiField) : si.toNumber < 4 := by
  cases si <;> decide

@[simp] theorem cardinality_am (sz : RlcAmSnSize) :
    cardinality sz.toNumber = 2 * windowSize sz.toNumber := by
  cases sz <;> rfl

theorem windowSize_pos (sz : RlcAmSnSize) : 0 < windowSize sz.toNumber := by
  cases sz <;> decide

end SrsRan.Rlc
