import Receipt.Proofs.PrintedLine

/-!
# Reading printed characters back

A character has a byte in the code page exactly when a byte stands for it (`Codepage.byte?_eq_some_iff`):
the entries of the upper half are all different, and none of them is an ASCII character.

`Codepage.encode_characterwise` says what this makes of printed texts. They are encoded character by
character, a byte each, and never with the byte of the no-break space. What the bytes stand for is the
text with plain spaces, as long as every character is supported, and another text as soon as one is
not: that one is printed as a question mark.
-/

namespace Receipt.Codepage

/-- The text that bytes stand for. -/
def decode (bytes : List UInt8) : List Char := bytes.map char

/-- A character as it is meant to be seen on paper: a no-break space looks like any other. -/
def plain (c : Char) : Char := if c = '\u00a0' then ' ' else c

/-! ## The table -/

theorem nodup_upperHalf : upperHalf.Nodup := by decide +kernel

/-- The entries are characters, and none of them belongs to the lower half. -/
theorem bounds_of_mem_upperHalf : ∀ n ∈ upperHalf, 128 ≤ n ∧ n < 0xD800 := by decide +kernel

theorem findIdx?_upperHalf {i n : Nat} (entry : upperHalf[i]? = some n) :
    upperHalf.findIdx? (· == n) = some i := by
  rcases List.getElem?_eq_some_iff.1 entry with ⟨inside, rfl⟩
  refine List.findIdx?_eq_some_iff_getElem.2 ⟨inside, beq_self_eq_true _, fun j before => ?_⟩
  have differs : upperHalf[j] ≠ upperHalf[i] := fun same =>
    Nat.ne_of_lt before ((List.Nodup.getElem_inj_iff nodup_upperHalf).1 same)
  simpa using differs

theorem toNat_ofNat_of_lt {n : Nat} (valid : n < 0xD800) : (Char.ofNat n).toNat = n := by
  rw [Char.toNat_ofNat, if_pos (.inl valid)]

theorem toNat_char_of_lower {byte : UInt8} (lower : byte.toNat < 128) :
    (char byte).toNat = byte.toNat := by
  unfold char
  rw [if_pos lower, toNat_ofNat_of_lt (by omega)]

theorem entry_char_of_upper {byte : UInt8} (upper : 128 ≤ byte.toNat) :
    upperHalf[byte.toNat - 128]? = some (char byte).toNat := by
  have below := byte.toNat_lt
  have inside : byte.toNat - 128 < upperHalf.length := by
    rw [length_upperHalf]
    omega
  have bounds := bounds_of_mem_upperHalf _ (List.getElem_mem inside)
  unfold char
  rw [if_neg (by omega), List.getD_eq_getElem _ _ inside, toNat_ofNat_of_lt bounds.2,
    List.getElem?_eq_getElem inside]

/-- The byte of a character is the one that stands for it. -/
theorem byte?_eq_some_iff {c : Char} {byte : UInt8} : byte? c = some byte ↔ char byte = c := by
  constructor
  · intro found
    unfold byte? at found
    split at found
    · next lower =>
      have same : byte.toNat = c.toNat := by
        rw [← Option.some.inj found, UInt8.toNat_ofNat_of_lt' (Nat.lt_trans lower (by decide))]
      apply Char.toNat_inj.1
      rw [toNat_char_of_lower (by omega), same]
    · rcases Option.map_eq_some_iff.1 found with ⟨i, index, rfl⟩
      rcases List.findIdx?_eq_some_iff_getElem.1 index with ⟨inside, same, _⟩
      have short : i < 128 := by rwa [length_upperHalf] at inside
      have place : (UInt8.ofNat (128 + i)).toNat = 128 + i :=
        UInt8.toNat_ofNat_of_lt' (show 128 + i < 256 by omega)
      have upper : 128 ≤ (UInt8.ofNat (128 + i)).toNat := by omega
      have entry := entry_char_of_upper upper
      rw [place, Nat.add_sub_cancel_left, List.getElem?_eq_getElem inside] at entry
      apply Char.toNat_inj.1
      rw [← Option.some.inj entry]
      exact beq_iff_eq.1 same
  · rintro rfl
    unfold byte?
    rcases Nat.lt_or_ge byte.toNat 128 with lower | upper
    · rw [toNat_char_of_lower lower, if_pos lower, UInt8.ofNat_toNat]
    · have entry := entry_char_of_upper upper
      have bounds := bounds_of_mem_upperHalf _ (List.mem_of_getElem? entry)
      rw [if_neg (by omega), findIdx?_upperHalf entry]
      show some (UInt8.ofNat (128 + (byte.toNat - 128))) = some byte
      rw [Nat.add_sub_cancel' upper, UInt8.ofNat_toNat]

theorem isSupported_iff {c : Char} : isSupported [c] = true ↔ ∃ byte, char byte = c :=
  Option.isSome_iff_exists.trans (exists_congr fun _ => byte?_eq_some_iff)

/-! ## Printed bytes -/

theorem char_noBreakSpace : char 0xFF = '\u00a0' := by decide

theorem printedByte_eq (c : Char) :
    printedByte c = if c = '\u00a0' then 0x20 else (byte? c).getD fallback := by
  unfold printedByte
  simp only [← Char.toNat_inj]
  rfl

/-- No character is printed as a no-break space. -/
theorem printedByte_ne_noBreakSpace (c : Char) : printedByte c ≠ 0xFF := by
  rw [printedByte_eq]
  split
  · decide
  · next other =>
    cases found : byte? c with
    | none => exact (by decide : fallback ≠ 0xFF)
    | some byte =>
      rintro rfl
      exact other ((byte?_eq_some_iff.1 found).symm.trans char_noBreakSpace)

theorem printedByte_of_unsupported {c : Char} (absent : ∀ byte, char byte ≠ c) :
    printedByte c = fallback := by
  have other : c ≠ '\u00a0' := fun same => absent 0xFF (char_noBreakSpace.trans same.symm)
  have none : byte? c = none :=
    Option.eq_none_iff_forall_ne_some.2 fun byte found => absent byte (byte?_eq_some_iff.1 found)
  rw [printedByte_eq, if_neg other, none]
  rfl

/-- What is printed for a character stands for it exactly when it is supported. -/
theorem char_printedByte_eq_iff {c : Char} :
    char (printedByte c) = plain c ↔ isSupported [c] = true := by
  rw [isSupported_iff]
  constructor
  · intro same
    by_contra absent
    rw [not_exists] at absent
    have other : c ≠ '\u00a0' := fun space => absent 0xFF (char_noBreakSpace.trans space.symm)
    rw [plain, if_neg other] at same
    exact absent _ same
  · rintro ⟨byte, stands⟩
    unfold plain
    rw [printedByte_eq]
    split
    · decide
    · rw [byte?_eq_some_iff.2 stands]
      exact stands

theorem decode_encode_eq_iff {text : List Char} :
    decode (encode text) = text.map plain ↔ ∀ c ∈ text, isSupported [c] = true := by
  unfold decode encode
  rw [List.map_map, List.map_inj_left]
  exact forall₂_congr fun c _ => char_printedByte_eq_iff

/-- Texts are encoded character by character, a byte each, and never with the byte of the no-break
space. A character is unsupported exactly when no byte stands for it, and is then printed as a question
mark. The bytes of a text stand for it, with plain spaces, exactly when all of its characters are
supported. -/
theorem encode_characterwise (text : List Char) :
    (∀ rest, encode (text ++ rest) = encode text ++ encode rest) ∧
      (encode text).length = text.length ∧
      0xFF ∉ encode text ∧
      (∀ c, isSupported [c] = false ↔ ∀ byte, char byte ≠ c) ∧
      (∀ c, isSupported [c] = false → encode [c] = [0x3F]) ∧
      (decode (encode text) = text.map plain ↔ ∀ c ∈ text, isSupported [c] = true) := by
  have unsupported_iff (c : Char) : isSupported [c] = false ↔ ∀ byte, char byte ≠ c := by
    rw [← Bool.not_eq_true, isSupported_iff, not_exists]
  refine ⟨fun rest => List.map_append, List.length_map _, ?_, unsupported_iff, ?_,
    decode_encode_eq_iff⟩
  · intro member
    rcases List.mem_map.1 member with ⟨c, _, printed⟩
    exact printedByte_ne_noBreakSpace c printed
  · intro c unsupported
    show [printedByte c] = [fallback]
    rw [printedByte_of_unsupported ((unsupported_iff c).1 unsupported)]

/-- A price in a currency that the printer has no sign for. -/
theorem encode_characterwise_foreignPrice :
    isSupported ['€'] = false ∧ encode ['€'] = [0x3F] ∧ decode (encode ['3', '€']) ≠ ['3', '€'] := by
  rcases encode_characterwise ['3', '€'] with ⟨_, _, _, _, printed, read_iff⟩
  have unsupported : isSupported ['€'] = false := by decide
  refine ⟨unsupported, printed '€' unsupported, fun read => ?_⟩
  exact absurd (read_iff.1 read '€' (by simp)) (by decide)

end Receipt.Codepage
