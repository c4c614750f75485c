import Mathlib
import ThermalLabel.Text.Bytes
/-!
# Opening data URLs

A data URL names a type and holds bytes, four characters to three of them. The bytes that an
address was made of are found in it again.
-/

namespace ThermalLabel

/-- The place of a character in the alphabet of sixty-four. -/
def sextet? (c : Char) : Option Nat :=
  if 'A' ≤ c ∧ c ≤ 'Z' then some (c.toNat - 'A'.toNat)
  else if 'a' ≤ c ∧ c ≤ 'z' then some (26 + (c.toNat - 'a'.toNat))
  else if '0' ≤ c ∧ c ≤ '9' then some (52 + (c.toNat - '0'.toNat))
  else if c = '+' then some 62
  else if c = '/' then some 63
  else none

/-- The bytes that characters stand for, in groups of four. Only the last group may be short, and
is filled with equals signs then. -/
def base64Bytes? : List Char → Option (List Nat)
  | [] => some []
  | a :: b :: c :: d :: rest => do
    let u ← sextet? a
    let v ← sextet? b
    if c = '=' ∧ d = '=' ∧ rest = [] then
      return [4 * u + v / 16]
    let w ← sextet? c
    if d = '=' ∧ rest = [] then
      return [4 * u + v / 16, v % 16 * 16 + w / 4]
    let x ← sextet? d
    return (4 * u + v / 16) :: (v % 16 * 16 + w / 4) :: (w % 4 * 64 + x) :: (← base64Bytes? rest)
  | _ => none

/-- The type and the bytes of a data URL. -/
def openDataUrl? (url : String) : Option (String × List Nat) := do
  let rest ← url.toList.dropPrefix? "data:".toList
  let mediaType := rest.takeWhile (· ≠ ';')
  let chars ← (rest.drop mediaType.length).dropPrefix? ";base64,".toList
  return (String.ofList mediaType, ← base64Bytes? chars)

theorem sextet?_sextetChar : ∀ n < 64, sextet? (sextetChar n) = some n := by
  decide

theorem sextetChar_ne_fill : ∀ n < 64, sextetChar n ≠ '=' := by
  decide

theorem base64Bytes?_base64Chars {bytes : List Nat} (h : ∀ b ∈ bytes, b < 256) :
    base64Bytes? (base64Chars bytes) = some bytes := by
  induction bytes using base64Chars.induct with
  | case1 => rfl
  | case2 a =>
    have ha : a < 256 := h a (by simp)
    have hfirst := sextet?_sextetChar (a / 4) (by omega)
    have hsecond := sextet?_sextetChar (a % 4 * 16) (by omega)
    simp [base64Chars, base64Bytes?, hfirst, hsecond]
    omega
  | case3 a b =>
    have ha : a < 256 := h a (by simp)
    have hb : b < 256 := h b (by simp)
    have hfirst := sextet?_sextetChar (a / 4) (by omega)
    have hsecond := sextet?_sextetChar (a % 4 * 16 + b / 16) (by omega)
    have hthird := sextet?_sextetChar (b % 16 * 4) (by omega)
    have hfill := sextetChar_ne_fill (b % 16 * 4) (by omega)
    simp [base64Chars, base64Bytes?, hfirst, hsecond, hthird, hfill]
    omega
  | case4 a b c rest ih =>
    have ha : a < 256 := h a (by simp)
    have hb : b < 256 := h b (by simp)
    have hc : c < 256 := h c (by simp)
    have hrest := ih fun x hx => h x (by simp [hx])
    have hfirst := sextet?_sextetChar (a / 4) (by omega)
    have hsecond := sextet?_sextetChar (a % 4 * 16 + b / 16) (by omega)
    have hthird := sextet?_sextetChar (b % 16 * 4 + c / 64) (by omega)
    have hfourth := sextet?_sextetChar (c % 64) (by omega)
    have hfill := sextetChar_ne_fill (c % 64) (by omega)
    simp [base64Chars, base64Bytes?, hfirst, hsecond, hthird, hfourth, hfill, hrest]
    omega

/-- What follows a heading. -/
theorem dropPrefix?_append (heading rest : List Char) :
    (heading ++ rest).dropPrefix? heading = some rest :=
  List.dropPrefix?_eq_some_iff.2 ⟨heading, rfl, BEq.rfl⟩

theorem openDataUrl?_dataUrl {bytes : List Nat} {mediaType : String} (h : ∀ b ∈ bytes, b < 256)
    (hmedia : ∀ c ∈ mediaType.toList, c ≠ ';') :
    openDataUrl? (dataUrl bytes mediaType) = some (mediaType, bytes) := by
  have htype : (mediaType.toList ++ (";base64,".toList ++ base64Chars bytes)).takeWhile (· ≠ ';') =
      mediaType.toList := by
    rw [List.takeWhile_append_of_pos fun c hc => decide_eq_true (hmedia c hc)]
    exact List.append_nil _
  simp only [openDataUrl?, dataUrl, String.toList_append, List.append_assoc, String.toList_ofList,
    dropPrefix?_append, Option.bind_eq_bind, Option.bind_some, htype, List.drop_left,
    base64Bytes?_base64Chars h, String.ofList_toList]
  rfl

end ThermalLabel
