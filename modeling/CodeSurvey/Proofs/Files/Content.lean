import CodeSurvey.Files.Content

/-!
# Written text is read back

The bytes of a text are text (`utf8?_toUTF8`), those of ASCII characters their numbers
(`toList_toUTF8_ofList`), and a text without carriage returns is as it was when it is read as lines
(`universalLines_eq_self`).
-/

namespace CodeSurvey.Files

/-- The bytes of a text give it back. -/
theorem utf8?_toUTF8 (s : String) : utf8? s.toUTF8 = some s := by
  unfold utf8? String.fromUTF8?
  rw [dif_pos (by rw [String.toUTF8_eq_toByteArray]; exact s.isValidUTF8)]
  exact congrArg some (String.toByteArray_inj.1 rfl)

/-- The bytes of an array that are gone through from one on. -/
theorem toList_loop (bs : ByteArray) (i : Nat) (r : List UInt8) :
    ByteArray.toList.loop bs i r = r.reverse ++ bs.data.toList.drop i := by
  have hsize : bs.size = bs.data.toList.length := rfl
  induction hn : bs.size - i generalizing i r with
  | zero =>
    rw [ByteArray.toList.loop, if_neg (by omega), List.drop_eq_nil_of_le (by omega),
      List.append_nil]
  | succ n ih =>
    have hi : i < bs.data.toList.length := by omega
    have hget : bs.get! i = bs.data.toList[i] := getElem!_pos bs.data i hi
    rw [ByteArray.toList.loop, if_pos (by omega), ih _ _ (by omega), List.reverse_cons,
      List.append_assoc, List.drop_eq_getElem_cons hi, List.singleton_append, hget]

/-- An array of bytes has the bytes that it is made of. -/
theorem toList_toByteArray (bs : List UInt8) : bs.toByteArray.toList = bs := by
  rw [ByteArray.toList, toList_loop, List.data_toByteArray]
  rfl

/-- In UTF-8 an ASCII character is the byte of its number. -/
theorem toList_toUTF8_ofList {cs : List Char} (h : ∀ c ∈ cs, c.toNat < 128) :
    (String.ofList cs).toUTF8.toList = cs.map fun c => UInt8.ofNat c.toNat := by
  rw [String.toUTF8, String.toByteArray_ofList, List.utf8Encode, toList_toByteArray]
  induction cs with
  | nil => rfl
  | cons c cs ih =>
    obtain ⟨hc, hcs⟩ := List.forall_mem_cons.1 h
    have hbyte : String.utf8EncodeChar c = [UInt8.ofNat c.toNat] := by
      unfold String.utf8EncodeChar
      exact if_pos (Nat.le_of_lt_succ hc)
    rw [List.flatMap_cons, List.map_cons, hbyte, ih hcs, List.singleton_append]

/-- Without carriage returns no line boundary is changed. -/
theorem universalLines_go {cs : List Char} (h : '\r' ∉ cs) (out : List Char) :
    universalLines.go out cs = out.reverse ++ cs := by
  induction cs generalizing out with
  | nil => simp [universalLines.go]
  | cons c cs ih =>
    obtain ⟨hc, hcs⟩ : c ≠ '\r' ∧ '\r' ∉ cs := by simpa [eq_comm] using h
    rw [universalLines.go, ih hcs]
    · simp
    · exact fun _ hr => absurd hr hc
    · exact hc

/-- A text without carriage returns is read as it is. -/
theorem universalLines_eq_self {s : String} (h : '\r' ∉ s.toList) : universalLines s = s := by
  rw [universalLines, universalLines_go h]
  simp

end CodeSurvey.Files
