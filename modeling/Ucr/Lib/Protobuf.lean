import Ucr.Lib.Encoding
import Mathlib.Algebra.Group.Int.Defs

-- The wire format of protocol buffers, as far as it is written.

namespace Protobuf

-- Seven bits a byte, the lowest first. Ten bytes are enough for 64 bits.
def varintBytes : ℕ → ℕ → Bytes
  | 0, _ => []
  | fuel + 1, n =>
    if n < 128 then [UInt8.ofNat n]
    else UInt8.ofNat (n % 128 + 128) :: varintBytes fuel (n / 128)

def varint (n : ℕ) : Bytes :=
  varintBytes 10 n

-- Numbers that are zero are left out.
def uint64Field (field n : ℕ) : Bytes :=
  if n = 0 then [] else varint (field * 8) ++ varint n

def int64Field (field : ℕ) (n : ℤ) : Bytes :=
  uint64Field field (n % 2 ^ 64).toNat

def messageField (field : ℕ) (message : Bytes) : Bytes :=
  varint (field * 8 + 2) ++ varint message.length ++ message

def bytesField (field : ℕ) (value : Bytes) : Bytes :=
  if value.isEmpty then [] else messageField field value

def optionalField (field : ℕ) (message : Option Bytes) : Bytes :=
  message.elim [] (messageField field)

theorem length_varint {n} : (varint n).length ≤ 10 := by
  have hfuel : ∀ fuel n, (varintBytes fuel n).length ≤ fuel := by
    intro fuel
    induction fuel
    case zero => intro n; exact Nat.le_refl _
    case succ fuel ih =>
      intro n
      rw [varintBytes]
      split
      case isTrue  => simp
      case isFalse => exact Nat.succ_le_succ (ih _)
  exact hfuel 10 n

theorem length_uint64Field {field n} : (uint64Field field n).length ≤ 20 := by
  rw [uint64Field]
  split
  case isTrue => simp
  case isFalse =>
    rw [List.length_append]
    exact Nat.add_le_add length_varint length_varint

theorem length_messageField {field message} :
    (messageField field message).length ≤ message.length + 20 := by
  have htag := @length_varint (field * 8 + 2)
  have hlength := @length_varint message.length
  simp only [messageField, List.length_append]
  omega

theorem length_bytesField {field value} : (bytesField field value).length ≤ value.length + 20 := by
  rw [bytesField]
  split
  case isTrue  => simp
  case isFalse => exact length_messageField

theorem length_optionalField (h : ∀ m, message = some m → m.length ≤ bound) :
    (optionalField field message).length ≤ bound + 20 := by
  cases message
  case none => simp [optionalField]
  case some m =>
    have hmessage := @length_messageField field m
    have hbound := h m rfl
    change (messageField field m).length ≤ _
    omega

end Protobuf
