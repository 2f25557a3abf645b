/-!
# Text

Text as a list of code points. Unlike a `String` it may hold half of a surrogate pair, which an
escape in a file can bring in and which is passed on as it stands.
-/

namespace Cosmac

/-- A number below `0x110000`, surrogates included. -/
abbrev CodePoint := Fin 0x110000

/-- A list of code points. -/
abbrev Text := List CodePoint

namespace CodePoint

/-- The code point of a number, which is taken modulo the number of code points. -/
def ofNat (n : Nat) : CodePoint :=
  ⟨n % 0x110000, Nat.mod_lt _ (by decide)⟩

/-- The code point of a character. -/
def ofChar (c : Char) : CodePoint :=
  ofNat c.toNat

/-- The character of a code point; a surrogate has none and becomes the replacement character. -/
def toChar (p : CodePoint) : Char :=
  if p.val.isValidChar then Char.ofNat p.val else '\uFFFD'

theorem val_ofChar (c : Char) : (ofChar c).val = c.toNat := by
  have small : c.toNat < 0x110000 := by
    have valid := c.valid
    simp only [UInt32.isValidChar, Nat.isValidChar] at valid
    unfold Char.toNat
    omega
  exact Nat.mod_eq_of_lt small

theorem toChar_ofChar (c : Char) : (ofChar c).toChar = c := by
  have valid : c.toNat.isValidChar := c.valid
  unfold toChar
  rw [val_ofChar, if_pos valid]
  exact Char.ofNat_toNat c

/-- Only one code point has a given character, unless it is the replacement character. -/
theorem eq_ofChar {p : CodePoint} (plain : p.toChar ≠ '\uFFFD') : p = ofChar p.toChar := by
  unfold toChar at plain ⊢
  by_cases valid : p.val.isValidChar
  · rw [if_pos valid]
    apply Fin.ext
    rw [val_ofChar, Char.ofNat, dif_pos valid]
    rfl
  · exact absurd (if_neg valid) plain

end CodePoint

namespace Text

/-- The text of a string. -/
def ofString (s : String) : Text :=
  s.toList.map CodePoint.ofChar

/-- The string of a text, with the replacement character for every surrogate. -/
def toString (t : Text) : String :=
  String.ofList (t.map CodePoint.toChar)

/-- Every string is read back from its code points. -/
theorem toString_ofString (s : String) : (ofString s).toString = s := by
  have inverse : CodePoint.toChar ∘ CodePoint.ofChar = id := funext CodePoint.toChar_ofChar
  rw [toString, ofString, List.map_map, inverse, List.map_id, String.ofList_toList]

/-- Different strings have different code points. -/
theorem ofString_inj {s r : String} : ofString s = ofString r ↔ s = r := by
  refine ⟨fun same => ?_, congrArg ofString⟩
  rw [← toString_ofString s, same, toString_ofString]

/-- A string without the replacement character belongs to one text only. -/
theorem toString_eq_iff {t : Text} {s : String} (plain : '\uFFFD' ∉ s.toList) :
    t.toString = s ↔ t = ofString s := by
  refine ⟨fun same => ?_, fun same => same ▸ toString_ofString s⟩
  subst same
  rw [toString, String.toList_ofList] at plain
  rw [toString, ofString, String.toList_ofList, List.map_map]
  symm
  refine (List.map_congr_left fun p listed => ?_).trans (List.map_id t)
  have own : p.toChar ≠ '\uFFFD' := fun same => plain (same ▸ List.mem_map_of_mem listed)
  exact (CodePoint.eq_ofChar own).symm

/-- Texts one after another with a separator in between. -/
def join (separator : Text) (ts : List Text) : Text :=
  (ts.intersperse separator).flatten

/-- Whether `t` stands before `u` in the order of code points. -/
def before (t u : Text) : Bool :=
  match t, u with
  | _, [] => false
  | [], _ :: _ => true
  | a :: t, b :: u => if a = b then before t u else a < b

theorem before_cons_iff {a b : CodePoint} {t u : Text} :
    before (a :: t) (b :: u) = true ↔ a < b ∨ (a = b ∧ before t u = true) := by
  rw [before]
  by_cases same : a = b
  · simp [same]
  · simp [same]

/-- No text comes before itself. -/
theorem before_irrefl (t : Text) : ¬ t.before t = true := by
  induction t with
  | nil => exact Bool.false_ne_true
  | cons a t ih =>
    rw [before_cons_iff]
    rintro (less | ⟨-, rest⟩)
    · exact Nat.lt_irrefl _ less
    · exact ih rest

/-- The order of texts is transitive. -/
theorem before_trans {t u v : Text} (first : t.before u = true) (second : u.before v = true) :
    t.before v = true := by
  induction t generalizing u v with
  | nil =>
    cases v with
    | nil => cases u <;> cases second
    | cons c v => rfl
  | cons a t ih =>
    cases u with
    | nil => cases first
    | cons b u =>
      cases v with
      | nil => cases second
      | cons c v =>
        rw [before_cons_iff] at first second ⊢
        obtain less | ⟨rfl, rest⟩ := first
        · obtain more | ⟨rfl, -⟩ := second
          · exact .inl (Nat.lt_trans less more)
          · exact .inl less
        · obtain more | ⟨rfl, last⟩ := second
          · exact .inl more
          · exact .inr ⟨rfl, ih rest last⟩

/-- Of two different texts one stands before the other. -/
theorem before_or_before {t u : Text} (ne : t ≠ u) : t.before u = true ∨ u.before t = true := by
  induction t generalizing u with
  | nil =>
    cases u with
    | nil => exact absurd rfl ne
    | cons b u => exact .inl rfl
  | cons a t ih =>
    cases u with
    | nil => exact .inr rfl
    | cons b u =>
      rw [before_cons_iff, before_cons_iff]
      by_cases same : a = b
      · subst same
        have rest : t ≠ u := fun same => ne (congrArg (a :: ·) same)
        exact (ih rest).imp (fun before => .inr ⟨rfl, before⟩) fun before => .inr ⟨rfl, before⟩
      · have apart : a.val ≠ b.val := fun same' => same (Fin.ext same')
        exact (Nat.lt_or_gt_of_ne apart).imp .inl .inl

end Text

instance : Coe String Text := ⟨Text.ofString⟩

end Cosmac
