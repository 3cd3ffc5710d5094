import TableDocs.Files.Encoding

/-!
# TableDocs — texts read back

A file that was written from a text is read as the same text, except that reading makes every line
end a line feed.

* **`utf8From_encodeChar`** — the bytes of one character are read as that character, whatever comes
  behind them.
* **`decode_encodeUtf8`** — so a whole text is read back.
-/

namespace TableDocs.Files

/-! ## The bytes of a text

The bytes of a text are those of its characters one behind the other, which is the form that the
decoder is compared with. -/

/-- The loop that lists bytes gives the ones from its index on, behind those that are done. -/
theorem toList_loop (bytes : ByteArray) (i : Nat) (done : List UInt8) :
    ByteArray.toList.loop bytes i done = done.reverse ++ bytes.data.toList.drop i := by
  fun_induction ByteArray.toList.loop bytes i done with
  | case1 i done hi ih =>
    have hlength : i < bytes.data.toList.length := hi
    have hget : bytes.get! i = bytes.data.toList[i] := getElem!_pos bytes.data i hi
    rw [ih, List.drop_eq_getElem_cons hlength, List.reverse_cons, List.append_assoc, hget]
    rfl
  | case2 i done hi =>
    have hlength : bytes.data.toList.length ≤ i := Nat.le_of_not_lt hi
    rw [List.drop_of_length_le hlength, List.append_nil]

/-- A text is encoded character by character. -/
theorem encodeUtf8_eq (s : String) : encodeUtf8 s = s.toList.flatMap String.utf8EncodeChar := by
  have hbytes : s.toUTF8 = (s.toList.flatMap String.utf8EncodeChar).toByteArray := by
    rw [String.toUTF8_eq_toByteArray, ← String.ofList_toList (s := s), String.toByteArray_ofList,
      String.toList_ofList, List.utf8Encode]
  rw [encodeUtf8, hbytes, ByteArray.toList, toList_loop, List.data_toByteArray]
  rfl

/-! ## Reading them

The decoder reads one character of one to four bytes and goes on. There is one equation for each
length, with the conditions under which its branch is taken. -/

namespace Decode

section Sequences

variable {position a b c d : Nat} {rest : List Nat}

theorem utf8From_one (ha : a < 0x80) :
    utf8From position (a :: rest) = cons (Char.ofNat a) (utf8From (position + 1) rest) := by
  rw [utf8From.eq_def]
  exact if_pos ha

theorem utf8From_two (ha : 0xC2 ≤ a ∧ a < 0xE0) (hb : isContinuation b = true) :
    utf8From position (a :: b :: rest) =
      cons (Char.ofNat ((a - 0xC0) * 64 + (b - 0x80))) (utf8From (position + 2) rest) := by
  have hstart : ¬(a < 0xC2 || 0xF5 ≤ a) = true := by simp; omega
  rw [utf8From.eq_def]
  simp only
  rw [if_neg (by omega), if_neg hstart, if_pos (by omega), if_pos hb]

theorem utf8From_three (ha : 0xE0 ≤ a ∧ a < 0xF0) (hb : secondFits a b = true)
    (hc : isContinuation c = true) :
    utf8From position (a :: b :: c :: rest) =
      cons (Char.ofNat ((a - 0xE0) * 4096 + (b - 0x80) * 64 + (c - 0x80)))
        (utf8From (position + 3) rest) := by
  have hstart : ¬(a < 0xC2 || 0xF5 ≤ a) = true := by simp; omega
  rw [utf8From.eq_def]
  simp only
  rw [if_neg (by omega), if_neg hstart, if_neg (by omega), if_pos (by omega), hb, hc]
  rfl

theorem utf8From_four (ha : 0xF0 ≤ a ∧ a < 0xF5) (hb : secondFits a b = true)
    (hc : isContinuation c = true) (hd : isContinuation d = true) :
    utf8From position (a :: b :: c :: d :: rest) =
      cons (Char.ofNat ((a - 0xF0) * 262144 + (b - 0x80) * 4096 + (c - 0x80) * 64 + (d - 0x80)))
        (utf8From (position + 4) rest) := by
  have hstart : ¬(a < 0xC2 || 0xF5 ≤ a) = true := by simp; omega
  rw [utf8From.eq_def]
  simp only
  rw [if_neg (by omega), if_neg hstart, if_neg (by omega), if_neg (by omega), hb, hc, hd]
  rfl

end Sequences

/-- The low six bits of a number, marked as a byte that goes on with a character. -/
theorem isContinuation_low (n : Nat) : isContinuation (n % 64 + 128) = true := by
  simp [isContinuation]
  omega

/-- Of three bytes, the second one is not too small, and not that of a surrogate. -/
theorem secondFits_three {v : Nat} (hsize : 0x7FF < v ∧ v ≤ 0xFFFF)
    (hvalid : v < 0xD800 ∨ 0xDFFF < v) :
    secondFits (v / 4096 % 16 + 224) (v / 64 % 64 + 128) = true := by
  simp only [secondFits, isContinuation_low, Bool.true_and, beq_iff_eq]
  split
  · exact decide_eq_true (by omega)
  · split
    · exact decide_eq_true (by omega)
    · rw [if_neg (by omega), if_neg (by omega)]

/-- Of four bytes, the second one is neither too small nor too large. -/
theorem secondFits_four {v : Nat} (hsize : 0xFFFF < v ∧ v < 0x110000) :
    secondFits (v / 262144 % 8 + 240) (v / 4096 % 64 + 128) = true := by
  simp only [secondFits, isContinuation_low, Bool.true_and, beq_iff_eq]
  rw [if_neg (by omega), if_neg (by omega)]
  split
  · exact decide_eq_true (by omega)
  · split
    · exact decide_eq_true (by omega)
    · rfl

/-- **The bytes of a character are read as it.** -/
theorem utf8From_encodeChar (c : Char) (position : Nat) (rest : List Nat) :
    ∃ next, utf8From position ((String.utf8EncodeChar c).map UInt8.toNat ++ rest) =
      cons c (utf8From next rest) := by
  have hvalid : c.toNat < 0xD800 ∨ 0xDFFF < c.toNat ∧ c.toNat < 0x110000 := c.valid
  have hchar : Char.ofNat c.toNat = c := Char.ofNat_toNat c
  have hbyte : ∀ n, n < 256 → (UInt8.ofNat n).toNat = n := fun n hn => Nat.mod_eq_of_lt hn
  have hval : c.val.toNat = c.toNat := rfl
  simp only [String.utf8EncodeChar, hval]
  split
  · -- one byte
    next h =>
    refine ⟨position + 1, ?_⟩
    simp only [List.map_cons, List.map_nil, List.cons_append, List.nil_append]
    rw [hbyte _ (by omega), utf8From_one (by omega), hchar]
  · split
    · -- two bytes
      refine ⟨position + 2, ?_⟩
      simp only [List.map_cons, List.map_nil, List.cons_append, List.nil_append]
      rw [hbyte _ (by omega), hbyte _ (by omega), utf8From_two (by omega) (isContinuation_low _)]
      -- the bits that were taken apart are put together again
      have hnumber : (c.toNat / 64 % 32 + 192 - 0xC0) * 64 + (c.toNat % 64 + 128 - 0x80) =
          c.toNat := by
        omega
      rw [hnumber, hchar]
    · split
      · -- three bytes
        refine ⟨position + 3, ?_⟩
        simp only [List.map_cons, List.map_nil, List.cons_append, List.nil_append]
        rw [hbyte _ (by omega), hbyte _ (by omega), hbyte _ (by omega),
          utf8From_three (by omega) (secondFits_three (by omega) (by omega)) (isContinuation_low _)]
        have hnumber : (c.toNat / 4096 % 16 + 224 - 0xE0) * 4096 +
            (c.toNat / 64 % 64 + 128 - 0x80) * 64 + (c.toNat % 64 + 128 - 0x80) = c.toNat := by
          omega
        rw [hnumber, hchar]
      · -- four bytes
        refine ⟨position + 4, ?_⟩
        simp only [List.map_cons, List.map_nil, List.cons_append, List.nil_append]
        rw [hbyte _ (by omega), hbyte _ (by omega), hbyte _ (by omega), hbyte _ (by omega),
          utf8From_four (by omega) (secondFits_four (by omega)) (isContinuation_low _)
            (isContinuation_low _)]
        have hnumber : (c.toNat / 262144 % 8 + 240 - 0xF0) * 262144 +
            (c.toNat / 4096 % 64 + 128 - 0x80) * 4096 + (c.toNat / 64 % 64 + 128 - 0x80) * 64 +
            (c.toNat % 64 + 128 - 0x80) = c.toNat := by
          omega
        rw [hnumber, hchar]

/-- So are the bytes of a text, one character after the other. -/
theorem utf8From_encode (cs : List Char) (position : Nat) :
    utf8From position ((cs.flatMap String.utf8EncodeChar).map UInt8.toNat) = .ok cs := by
  induction cs generalizing position with
  | nil => rfl
  | cons c cs ih =>
    obtain ⟨next, hc⟩ := utf8From_encodeChar c position
      ((cs.flatMap String.utf8EncodeChar).map UInt8.toNat)
    rw [List.flatMap_cons, List.map_append, hc, ih]
    rfl

end Decode

/-! ## Line ends

Reading a file unifies its line ends. That is the only way in which a text that was written and read
differs from itself. -/

/-- Without a carriage return there is nothing to unify. -/
theorem unifyLineEnds_eq_self {cs : List Char} (h : '\r' ∉ cs) : unifyLineEnds cs = cs := by
  fun_induction unifyLineEnds cs with
  | case1 => rfl
  | case2 => exact absurd List.mem_cons_self h
  | case3 => exact absurd List.mem_cons_self h
  | case4 c rest _ _ ih => rw [ih fun hr => h (List.mem_cons_of_mem c hr)]

/-- **A text that was written is read back.** -/
theorem decode_encodeUtf8 (s : String) :
    Encoding.utf8.decode (encodeUtf8 s) = .ok (String.ofList (unifyLineEnds s.toList)) := by
  rw [encodeUtf8_eq, Encoding.decode]
  simp only [Decode.utf8From_encode]
  rfl

end TableDocs.Files
