import Mathlib
import ThermalLabel.Text.Bytes
/-!
# Reading hexadecimal digits

Two digits to a byte, high half first, in capitals. The bytes that digits were written for are read
from them again.
-/

namespace ThermalLabel

def upperHexDigits : List Char := "0123456789ABCDEF".toList

def hexDigit? (c : Char) : Option Nat := upperHexDigits.idxOf? c

/-- The bytes that digits stand for. A digit left over stands for none. -/
def hexBytes? : List Char → Option (List Nat)
  | [] => some []
  | [_] => none
  | high :: low :: rest => do
    let h ← hexDigit? high
    let l ← hexDigit? low
    return (16 * h + l) :: (← hexBytes? rest)

theorem hexDigit?_eq_some_of_lt : ∀ d < 16,
    hexDigit? (if d < 10 then Char.ofNat ('0'.toNat + d) else Char.ofNat ('A'.toNat + (d - 10))) =
      some d := by
  decide

theorem mem_upperHexDigits_of_hexDigit? {c : Char} {d : Nat} (h : hexDigit? c = some d) :
    c ∈ upperHexDigits := by
  by_contra hc
  rw [hexDigit?, List.idxOf?_eq_none_iff.2 hc] at h
  cases h

/-- The two digits of a byte. -/
theorem exists_hexByte (n : Nat) : ∃ high low, hexByte true n = [high, low] ∧
    hexDigit? high = some (n / 16 % 16) ∧ hexDigit? low = some (n % 16) := by
  have hhigh := hexDigit?_eq_some_of_lt (n / 16 % 16) (Nat.mod_lt _ (by decide))
  have hlow := hexDigit?_eq_some_of_lt (n % 16) (Nat.mod_lt _ (by decide))
  exact ⟨_, _, rfl, hhigh, hlow⟩

theorem hexBytes?_flatMap_hexByte {bytes : List Nat} (h : ∀ b ∈ bytes, b < 256) :
    hexBytes? (bytes.flatMap (hexByte true)) = some bytes := by
  induction bytes with
  | nil => rfl
  | cons b bytes ih =>
    have hb : b < 256 := h b List.mem_cons_self
    have hrest := ih fun x hx => h x (List.mem_cons_of_mem b hx)
    obtain ⟨high, low, hdigits, hhigh, hlow⟩ := exists_hexByte b
    have hbyte : 16 * (b / 16 % 16) + b % 16 = b := by omega
    simp only [List.flatMap_cons, hdigits, List.cons_append, List.nil_append, hexBytes?, hhigh, hlow,
      hrest, Option.bind_eq_bind, Option.bind_some, hbyte]
    rfl

theorem hexBytes?_upperHex {bytes : List Nat} (h : ∀ b ∈ bytes, b < 256) :
    hexBytes? (upperHex bytes).toList = some bytes := by
  rw [upperHex, String.toList_ofList]
  exact hexBytes?_flatMap_hexByte h

theorem mem_upperHexDigits_of_upperHex {bytes : List Nat} {c : Char}
    (h : c ∈ (upperHex bytes).toList) : c ∈ upperHexDigits := by
  rw [upperHex, String.toList_ofList, List.mem_flatMap] at h
  obtain ⟨b, -, hc⟩ := h
  obtain ⟨high, low, hdigits, hhigh, hlow⟩ := exists_hexByte b
  rw [hdigits, List.mem_cons, List.mem_singleton] at hc
  rcases hc with rfl | rfl
  · exact mem_upperHexDigits_of_hexDigit? hhigh
  · exact mem_upperHexDigits_of_hexDigit? hlow

theorem length_upperHex (bytes : List Nat) : (upperHex bytes).length = 2 * bytes.length := by
  have hbyte : ∀ n, (hexByte true n).length = 2 := fun _ => rfl
  simp [upperHex, List.length_flatMap, hbyte, Nat.mul_comm]

end ThermalLabel
