import Receipt.Proofs.Wire

/-!
# Whether a printer finds the functions of a symbol

A printer that is told to print a symbol reads frames: the bytes GS ( k, the number of bytes that follow
in two bytes, and as many bytes. `Symbol.readFrames?` reads a whole stream in this way and knows nothing
of what was sent; `Symbol.readFrames?_eq_some_iff` says that a stream is read as the contents of frames
exactly when it is made of these frames and each of them can carry its length.

So a payload may look like anything, a frame included (`Symbol.framed_encode`): what is sent for it is
the one stream that is read as the five functions of a symbol, in their order, and it is sent exactly
when the frame of the payload can carry its length.
-/

namespace Receipt

namespace Symbol

/-- Reads a stream of frames to its end and gives what the frames hold. -/
def readFrames? : List UInt8 → Option (List (List UInt8))
  | [] => some []
  | byte :: stream =>
    match _first : readFunction? (byte :: stream) with
    | none => none
    | some (content, rest) => (readFrames? rest).map (content :: ·)
termination_by stream => stream.length
decreasing_by
  have framed : _ ∧ (Token.symbol content).Framed .escPos := Token.eq_append_of_readFunction? _first
  rw [framed.1, List.length_append]
  have some := List.length_pos_iff.2 (Token.bytes_ne_nil (.symbol content))
  omega

theorem readFrames?_append {content : List UInt8} (fits : content.length < 65536)
    (rest : List UInt8) :
    readFrames? ((Token.symbol content).bytes ++ rest) =
      (readFrames? rest).map (content :: ·) := by
  have first := Token.readFunction?_bytes fits rest
  cases stream : (Token.symbol content).bytes ++ rest with
  | nil => exact absurd (List.append_eq_nil_iff.1 stream).1 (Token.bytes_ne_nil _)
  | cons byte behind =>
    rw [stream] at first
    rw [readFrames?]
    split
    · next none =>
      rw [first] at none
      cases none
    · next found =>
      rw [first] at found
      cases found
      rfl

/-- A stream is read as the contents of the frames that it is made of, provided that each of them can
carry its length. -/
theorem readFrames?_eq_some_iff {stream : List UInt8} {contents : List (List UInt8)} :
    readFrames? stream = some contents ↔
      stream = contents.flatMap (fun content => (Token.symbol content).bytes) ∧
        ∀ content ∈ contents, content.length < 65536 := by
  constructor
  · intro made
    fun_induction readFrames? stream generalizing contents with
    | case1 =>
      cases made
      exact ⟨rfl, fun content member => by cases member⟩
    | case2 byte stream none => cases made
    | case3 byte stream content rest first ih =>
      rcases Option.map_eq_some_iff.1 made with ⟨later, read, rfl⟩
      have framed : _ ∧ (Token.symbol content).Framed .escPos :=
        Token.eq_append_of_readFunction? first
      rcases framed with ⟨same, fits⟩
      rcases ih read with ⟨behind, others⟩
      rw [same, List.flatMap_cons, ← behind]
      exact ⟨rfl, List.forall_mem_cons.2 ⟨fits, others⟩⟩
  · rintro ⟨rfl, fits⟩
    induction contents with
    | nil => rw [List.flatMap_nil, readFrames?]
    | cons content contents ih =>
      rcases List.forall_mem_cons.1 fits with ⟨own, others⟩
      rw [List.flatMap_cons, readFrames?_append own, ih others]
      rfl

/-! ## The bytes of a payload -/

theorem toList_loop (bytes : ByteArray) (i : Nat) (read : List UInt8) :
    ByteArray.toList.loop bytes i read = read.reverse ++ bytes.data.toList.drop i := by
  fun_induction ByteArray.toList.loop bytes i read with
  | case1 i read inside ih =>
    have next : bytes.data.toList.drop i = bytes.get! i :: bytes.data.toList.drop (i + 1) := by
      rw [List.drop_eq_getElem_cons (show i < bytes.data.toList.length from inside)]
      congr 1
      exact (getElem!_pos bytes.data i inside).symm
    rw [ih, next, List.reverse_cons, List.append_assoc]
    rfl
  | case2 i read outside =>
    rw [List.drop_of_length_le (Nat.le_of_not_lt outside), List.append_nil]

/-- The bytes of a text, character by character. -/
def utf8 (data : String) : List UInt8 := data.toList.flatMap String.utf8EncodeChar

theorem payloadBytes_eq (data : String) : payloadBytes data = utf8 data := by
  unfold payloadBytes ByteArray.toList
  rw [toList_loop, List.drop_zero, List.reverse_nil, List.nil_append, String.toUTF8_eq_toByteArray,
    ← String.utf8Encode_toList]
  exact List.toList_data_toByteArray

/-! ## What is sent -/

/-- What the frames of a symbol hold: the model, the size of a module, the level of error correction,
the payload and the order to print, each behind the kind of symbol and the number of the function. -/
def contents (data : String) (module : UInt8) : List (List UInt8) :=
  [[49, 65, 50, 0], [49, 67, module], [49, 69, 49], 49 :: 80 :: 48 :: utf8 data, [49, 81, 48]]

theorem toNat_moduleByte (size : Int) :
    ((UInt8.ofNat (moduleSize size).toNat).toNat : Int) = max 1 (min 16 size) := by
  unfold moduleSize
  rw [UInt8.toNat_ofNat_of_lt' (show (max 1 (min 16 size)).toNat < 256 by omega)]
  omega

theorem flatMap_tokens (data : String) (size : Int) :
    (tokens data size).flatMap Token.bytes =
      (contents data (UInt8.ofNat (moduleSize size).toNat)).flatMap
        fun content => (Token.symbol content).bytes := by
  unfold contents tokens
  rw [payloadBytes_eq]
  rfl

theorem fits_contents_iff {data : String} {module : UInt8} :
    (∀ content ∈ contents data module, content.length < 65536) ↔ (utf8 data).length ≤ 65532 := by
  unfold contents
  simp only [List.forall_mem_cons, List.not_mem_nil, false_implies, implies_true, and_true,
    List.length_cons, List.length_nil]
  omega

/-- The bytes that are sent for a symbol are those that a printer reads as its five functions, with the
size of a module from 1 to 16. They are sent exactly when the payload has no more than 65532 bytes, and
otherwise the number of its bytes is reported. -/
theorem framed_encode (data : String) (size : Int) :
    ∃ module : UInt8, (module.toNat : Int) = max 1 (min 16 size) ∧
      (∀ bytes, encode data size = .ok bytes ↔
        (utf8 data).length ≤ 65532 ∧ readFrames? bytes = some (contents data module)) ∧
      ∀ n, encode data size = .error n ↔ 65532 < (utf8 data).length ∧ n = (utf8 data).length := by
  refine ⟨_, toNat_moduleByte size, fun bytes => ?_, fun n => ?_⟩
  · rw [encode_eq, readFrames?_eq_some_iff, fits_contents_iff, ← flatMap_tokens, payloadBytes_eq]
    rcases Nat.lt_or_ge 65532 (utf8 data).length with long | fits
    · rw [if_pos (show maxPayload < _ from long)]
      exact iff_of_false nofun fun read => absurd read.1 (Nat.not_le_of_lt long)
    · rw [if_neg (show ¬ maxPayload < _ from Nat.not_lt_of_le fits), Except.ok.injEq, eq_comm]
      exact ⟨fun same => ⟨fits, same, fits⟩, fun read => read.2.1⟩
  · rw [encode_eq, payloadBytes_eq]
    rcases Nat.lt_or_ge 65532 (utf8 data).length with long | fits
    · rw [if_pos (show maxPayload < _ from long), Except.error.injEq, eq_comm]
      exact ⟨fun same => ⟨long, same⟩, fun read => read.2⟩
    · rw [if_neg (show ¬ maxPayload < _ from Nat.not_lt_of_le fits)]
      exact iff_of_false nofun fun read => absurd read.1 (Nat.not_lt_of_le fits)

/-- A payload that itself looks like a frame is read as a payload. -/
example :
    (encode "\x1D(k" 20).toOption.bind readFrames? =
      some [[49, 65, 50, 0], [49, 67, 16], [49, 69, 49], [49, 80, 48, 0x1D, 0x28, 0x6B],
        [49, 81, 48]] := by
  decide +kernel

end Symbol

end Receipt
