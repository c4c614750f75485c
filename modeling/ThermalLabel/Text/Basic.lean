/-!
# Texts

A text is a sequence of code points. All but 2048 of these are characters; the others are halves of
surrogate pairs. Two halves may stand for one character where a text is read, but a half that stands
alone is part of a text like any character, and only when the text is encoded it has no place.
-/

namespace ThermalLabel

/-- Half of a surrogate pair, by its place among all of them. -/
abbrev Half := Fin 2048

namespace Half

/-- The code of the first half. -/
def firstCode : Nat := 0xD800

def code (h : Half) : Nat := firstCode + h.val

/-- The half of a code, if that is one. -/
def ofCode? (n : Nat) : Option Half :=
  if h : firstCode ≤ n ∧ n < firstCode + 2048 then some ⟨n - firstCode, by omega⟩ else none

end Half

inductive CodePoint where
  | char (c : Char)
  | half (h : Half)
deriving DecidableEq, Repr

namespace CodePoint

instance : Coe Char CodePoint := ⟨char⟩

/-- The code point of a code. -/
def ofCode (n : Nat) : CodePoint :=
  match Half.ofCode? n with
  | some h => .half h
  | none => .char (Char.ofNat n)

end CodePoint

/-- A text: characters only, or characters up to the first half that stands alone, and the rest. -/
inductive Text where
  | plain (characters : String)
  | broken (before : String) (half : Half) (after : Text)
deriving DecidableEq, Repr

namespace Text

instance : Coe String Text := ⟨plain⟩

instance : Inhabited Text := ⟨plain ""⟩

def points : Text → List CodePoint
  | plain s => s.toList.map .char
  | broken before half after => before.toList.map .char ++ .half half :: after.points

/-- The text of code points that follow some characters, these in reverse. -/
def ofPointsAfter (before : List Char) : List CodePoint → Text
  | [] => plain (String.ofList before.reverse)
  | .char c :: rest => ofPointsAfter (c :: before) rest
  | .half h :: rest => broken (String.ofList before.reverse) h (ofPointsAfter [] rest)

def ofPoints (ps : List CodePoint) : Text := ofPointsAfter [] ps

def append : Text → Text → Text
  | plain s, plain t => plain (s ++ t)
  | plain s, broken before half after => broken (s ++ before) half after
  | broken before half after, t => broken before half (after.append t)

instance : Append Text := ⟨append⟩

/-- Texts one after the other. -/
def join (ts : List Text) : Text := ts.foldl (· ++ ·) ""

/-- Lengths count code points. -/
def length (t : Text) : Nat := t.points.length

/-- The characters of a text that has nothing else. -/
def characters? : Text → Option String
  | plain s => some s
  | broken .. => none

/-- A text as it can be shown: a half is replaced. -/
def shown : Text → String
  | plain s => s
  | broken before _ after => before ++ "\uFFFD" ++ after.shown

/-! ## Code points of texts -/

@[simp] theorem points_plain (s : String) : (plain s).points = s.toList.map .char := rfl

@[simp] theorem points_ofPointsAfter (before : List Char) (ps : List CodePoint) :
    (ofPointsAfter before ps).points = before.reverse.map .char ++ ps := by
  induction ps generalizing before with
  | nil => simp [ofPointsAfter]
  | cons p ps ih =>
    cases p with
    | char c => simp [ofPointsAfter, ih]
    | half h => simp [ofPointsAfter, points, ih]

@[simp] theorem points_ofPoints (ps : List CodePoint) : (ofPoints ps).points = ps :=
  points_ofPointsAfter [] ps

theorem ofPointsAfter_append (before cs : List Char) (ps : List CodePoint) :
    ofPointsAfter before (cs.map .char ++ ps) = ofPointsAfter (cs.reverse ++ before) ps := by
  induction cs generalizing before with
  | nil => rfl
  | cons c cs ih => simp [ofPointsAfter, ih]

@[simp] theorem ofPoints_points (t : Text) : ofPoints t.points = t := by
  induction t with
  | plain s =>
    have h := ofPointsAfter_append [] s.toList []
    rw [List.append_nil] at h
    rw [points, ofPoints, h]
    simp [ofPointsAfter]
  | broken before half after ih =>
    rw [points, ofPoints, ofPointsAfter_append, ofPointsAfter]
    change broken _ half (ofPoints after.points) = _
    simp [ih]

theorem ext_points {t u : Text} (h : t.points = u.points) : t = u := by
  rw [← ofPoints_points t, h, ofPoints_points]

theorem points_inj {t u : Text} : t.points = u.points ↔ t = u := ⟨ext_points, congrArg points⟩

@[simp] theorem points_append (t u : Text) : (t ++ u).points = t.points ++ u.points := by
  change (append t u).points = _
  induction t with
  | plain s => cases u <;> simp [append, points]
  | broken before half after ih => simp [append, points, ih]

theorem append_assoc {t u v : Text} : t ++ u ++ v = t ++ (u ++ v) := by
  apply ext_points
  simp

@[simp] theorem append_empty {t : Text} : t ++ "" = t := by
  apply ext_points
  simp

@[simp] theorem empty_append {t : Text} : "" ++ t = t := by
  apply ext_points
  simp

theorem append_right_inj (t : Text) {u v : Text} : t ++ u = t ++ v ↔ u = v := by
  rw [← points_inj, ← points_inj, points_append, points_append, List.append_right_inj]

theorem append_left_inj (v : Text) {t u : Text} : t ++ v = u ++ v ↔ t = u := by
  rw [← points_inj, ← points_inj, points_append, points_append, List.append_left_inj]

theorem plain_append (s t : String) : ((s ++ t : String) : Text) = s ++ t := rfl

@[simp] theorem points_join (ts : List Text) : (join ts).points = ts.flatMap points := by
  have hfold (acc : Text) :
      (ts.foldl (· ++ ·) acc).points = acc.points ++ ts.flatMap points := by
    induction ts generalizing acc with
    | nil => simp
    | cons t ts ih => simp [ih]
  exact hfold ""

@[simp] theorem join_nil : join [] = "" := rfl

theorem join_cons {t : Text} {ts : List Text} : join (t :: ts) = t ++ join ts := by
  apply ext_points
  simp

theorem join_append {ts us : List Text} : join (ts ++ us) = join ts ++ join us := by
  apply ext_points
  simp

@[simp] theorem length_plain (s : String) : (plain s).length = s.length := by
  simp [length, String.length_toList]

theorem length_points {t : Text} : t.points.length = t.length := rfl

end Text
end ThermalLabel
