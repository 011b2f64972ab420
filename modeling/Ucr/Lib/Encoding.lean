import Mathlib.Algebra.Group.Nat.Defs
import Mathlib.Data.List.Basic

-- Byte encodings that are read back from the front of a longer text: whoever knows the encoding can
-- tell where one value ends and the next begins. Encodings built from these pieces are injective.

abbrev Bytes := List UInt8

namespace Encoding

open List

variable {α β γ : Type}

def SelfDelimiting (enc : α → Bytes) : Prop :=
  ∀ ⦃a b s t⦄, enc a ++ s = enc b ++ t → a = b ∧ s = t

-- Big-endian representation of a number in a fixed count of bytes.
def beBytes : ℕ → ℕ → Bytes
  | 0, _ => []
  | width + 1, n => beBytes width (n / 256) ++ [.ofNat n]

def beNat (bytes : Bytes) : ℕ :=
  bytes.foldl (fun n byte => n * 256 + byte.toNat) 0

def lengthPrefixed (width : ℕ) (value : Bytes) : Bytes :=
  beBytes width value.length ++ value

-- A byte says whether there is a value.
def pushOptional {α : Type} (push : α → Bytes) : Option α → Bytes
  | some value => 1 :: push value
  | none => [0]

@[simp]
theorem length_beBytes : (beBytes width n).length = width := by
  induction width generalizing n <;> simp_all [beBytes]

theorem beNat_beBytes (h : n < 256 ^ width) : beNat (beBytes width n) = n := by
  induction width generalizing n
  case zero => simp_all [beNat, beBytes]
  case succ width ih =>
    have hhead : beNat (beBytes width (n / 256)) = n / 256 := ih (by omega)
    simp only [beNat] at hhead
    simp only [beNat, beBytes, foldl_append, foldl_cons, foldl_nil, hhead]
    have hlast : (UInt8.ofNat n).toNat = n % 256 := by simp
    omega

theorem beBytes_inj (hm : m < 256 ^ width) (hn : n < 256 ^ width)
    (h : beBytes width m = beBytes width n) : m = n := by
  rw [← beNat_beBytes hm, h, beNat_beBytes hn]

variable {enc : α → Bytes}

-- A value of fixed length ends where its length says.
theorem selfDelimiting_of_length (hl : ∀ a, (enc a).length = width) (hi : Function.Injective enc) :
    SelfDelimiting enc := by
  intro a b s t h
  obtain ⟨hab, hst⟩ := append_inj h ((hl a).trans (hl b).symm)
  exact ⟨hi hab, hst⟩

theorem selfDelimiting_lengthPrefixed (hi : Function.Injective enc)
    (hb : ∀ a, (enc a).length < 256 ^ width) :
    SelfDelimiting fun a => lengthPrefixed width (enc a) := by
  intro a b s t h
  simp only [lengthPrefixed, append_assoc] at h
  obtain ⟨hlen, hrest⟩ := append_inj h (by simp)
  obtain ⟨hab, hst⟩ := append_inj hrest (beBytes_inj (hb a) (hb b) hlen)
  exact ⟨hi hab, hst⟩

theorem SelfDelimiting.append {f : α → Bytes} {g : β → Bytes} (hf : SelfDelimiting f)
    (hg : SelfDelimiting g) : SelfDelimiting fun p : α × β => f p.1 ++ g p.2 := by
  rintro ⟨a, b⟩ ⟨a', b'⟩ s t h
  simp only [append_assoc] at h
  obtain ⟨rfl, hrest⟩ := hf h
  obtain ⟨rfl, hst⟩ := hg hrest
  exact ⟨rfl, hst⟩

-- One value after the other, if it is known how many there are.
theorem SelfDelimiting.flatMap {l l' : List α} (h : SelfDelimiting enc) (hlen : l.length = l'.length)
    (heq : l.flatMap enc ++ s = l'.flatMap enc ++ t) : l = l' ∧ s = t := by
  induction l generalizing l'
  case nil =>
    obtain rfl := length_eq_zero_iff.mp hlen.symm
    exact ⟨rfl, heq⟩
  case cons a l ih =>
    obtain ⟨b, l', rfl⟩ := exists_cons_of_length_eq_add_one hlen.symm
    simp only [flatMap_cons, append_assoc] at heq
    obtain ⟨rfl, hrest⟩ := h heq
    obtain ⟨rfl, rfl⟩ := ih (Nat.succ.inj hlen) hrest
    exact ⟨rfl, rfl⟩

-- Encoding a value by a self-delimiting view of it.
theorem SelfDelimiting.comp {enc : β → Bytes} (h : SelfDelimiting enc) {view : α → β}
    (hv : Function.Injective view) : SelfDelimiting fun a => enc (view a) :=
  fun _ _ _ _ hab => have ⟨hab, hst⟩ := h hab; ⟨hv hab, hst⟩

theorem SelfDelimiting.pushOptional (h : SelfDelimiting enc) :
    SelfDelimiting (pushOptional enc) := by
  rintro (_ | a) (_ | b) s t hab
  case none.none => exact ⟨rfl, by simpa [Encoding.pushOptional] using hab⟩
  case none.some => simp [Encoding.pushOptional] at hab
  case some.none => simp [Encoding.pushOptional] at hab
  case some.some =>
    obtain ⟨rfl, hst⟩ := h (by simpa [Encoding.pushOptional] using hab)
    exact ⟨rfl, hst⟩

end Encoding
