import Dialogue.Proofs.Json.Number

/-!
# Whole numbers given as text

A text is read as a whole number by dropping what is needless in it, so that the number has no more
digits than the text.
-/

namespace Dialogue.Number

open Json (length_decimalDigits_le natAbs_signed)
open Text (isSpace stripWhile)

/-- A whole number has no more digits than it was read from. -/
theorem length_of_plainInt? {cs : List Char} {n : Int} (read : plainInt? cs = some n) :
    (decimalDigits n.natAbs).length ≤ cs.length := by
  have unsigned (negative : Bool) (ds : List Char)
      (read : (if ds.isEmpty ∨ !ds.all Char.isDigit ∨ (ds.head? = some '0' ∧ 1 < ds.length) then none
        else some (signed negative (Json.digitsValue ds))) = some n) :
      (decimalDigits n.natAbs).length ≤ ds.length := by
    split at read
    case isTrue => cases read
    case isFalse plain =>
      obtain rfl := Option.some.inj read
      simp only [not_or] at plain
      rw [natAbs_signed]
      exact length_decimalDigits_le (by simpa using plain.1) (by simpa using plain.2.1)
  unfold plainInt? at read
  dsimp only at read
  split at read
  case h_1 ds => exact (unsigned true ds read).trans (by simp)
  case h_2 => exact unsigned false cs read

/-- Dropping zeros makes a text no longer. -/
theorem length_dropZeros? {cs ds : List Char} (read : dropZeros? cs = some ds) :
    ds.length ≤ cs.length := by
  unfold dropZeros? at read
  split at read
  case h_1 cs =>
    have shorter : (cs.dropWhile fun c => c == '0' || c == '_').length ≤ cs.length :=
      (List.dropWhile_suffix _).length_le
    dsimp only at read
    split at read
    · obtain rfl := Option.some.inj read
      simp
    · obtain rfl := Option.some.inj read
      simpa using shorter
    · split at read
      · obtain rfl := Option.some.inj read
        simp only [List.length_cons]
        omega
      · cases read
  case h_2 =>
    split at read
    · obtain rfl := Option.some.inj read
      exact le_rfl
    · cases read
  case h_3 => cases read

theorem length_dropZeroFraction (cs : List Char) : (dropZeroFraction cs).length ≤ cs.length := by
  unfold dropZeroFraction
  split
  case h_1 whole fraction same =>
    have start : whole = cs.takeWhile fun c => !(c == '.') := (congrArg Prod.fst same).symm
    have shorter : whole.length ≤ cs.length := start ▸ (List.takeWhile_prefix _).length_le
    split
    · exact shorter
    · exact le_rfl
  case h_2 => exact le_rfl

theorem length_dropUnderscores? (cs : List Char) :
    ((dropUnderscores? cs).getD cs).length ≤ cs.length := by
  unfold dropUnderscores?
  split
  · exact le_rfl
  · exact List.length_filter_le _ _

/-- A whole number given as text has no more digits than a text may hold. -/
theorem length_of_lenientInt {cs : List Char} {n : Int} (read : lenientInt cs = .value n) :
    (decimalDigits n.natAbs).length ≤ maxDigits := by
  unfold lenientInt at read
  dsimp only at read
  split at read
  case isTrue => cases read
  case isFalse short =>
    generalize stripWhile isSpace cs = body at short read
    have shorter : (if body.head? = some '+' then body.drop 1 else body).length ≤ body.length := by
      split <;> simp
    generalize (if body.head? = some '+' then body.drop 1 else body) = unsigned at shorter read
    split at read
    case h_1 m plain =>
      obtain rfl : m = n := by simpa using read
      exact (length_of_plainInt? plain).trans (not_lt.1 short)
    case h_2 =>
      split at read
      case isTrue => cases read
      case isFalse =>
        split at read
        case h_2 => cases read
        case h_1 m plain =>
          obtain rfl : m = n := by simpa using read
          obtain ⟨c, cleaned, plain⟩ := Option.bind_eq_some_iff.1 plain
          obtain ⟨ds, dropped, rfl⟩ := Option.map_eq_some_iff.1 cleaned
          calc (decimalDigits m.natAbs).length
              ≤ _ := length_of_plainInt? plain
            _ ≤ _ := length_dropUnderscores? _
            _ ≤ ds.length := length_dropZeroFraction ds
            _ ≤ _ := length_dropZeros? dropped
            _ ≤ body.length := shorter
            _ ≤ maxDigits := not_lt.1 short

end Dialogue.Number
