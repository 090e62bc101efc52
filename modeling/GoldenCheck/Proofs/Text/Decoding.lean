import GoldenCheck.Proofs.Text.Encoding

/-!
# Decoding loses no byte

Each byte goes into one chunk, in its place, so that the bytes of the chunks are the bytes that were
split.  Hence what strict decoding accepts is an encoding, and the text of a file name gives back its
bytes, whatever they are.
-/

namespace GoldenCheck
namespace Utf8

/-! ## 1. Complete sequences -/

theorem toNat_ofNat {n : Nat} (h : n.isValidChar) : (Char.ofNat n).toNat = n := by
  rw [Char.ofNat, dif_pos h]
  rfl

/-- What may come second, in numbers. -/
theorem maySecond_toNat {a b : UInt8} (h : maySecond a b = true) :
    (0x80 ≤ b.toNat ∧ b.toNat < 0xC0) ∧ (a.toNat = 0xE0 → 0xA0 ≤ b.toNat) ∧
      (a.toNat = 0xED → b.toNat < 0xA0) ∧ (a.toNat = 0xF0 → 0x90 ≤ b.toNat) ∧
      (a.toNat = 0xF4 → b.toNat < 0x90) := by
  have hnum : ∀ m : UInt8, a = m ↔ a.toNat = m.toNat := fun m => UInt8.toNat_inj.symm
  rw [maySecond, Bool.and_eq_true, isContinuation_iff] at h
  simp only [hnum, UInt8.reduceToNat] at h
  obtain ⟨hb, h⟩ := h
  refine ⟨hb, fun ha => ?_, fun ha => ?_, fun ha => ?_, fun ha => ?_⟩ <;>
    simpa [ha, UInt8.le_iff_toNat_le, UInt8.lt_iff_toNat_lt] using h

theorem byte_eq {n : Nat} {b : UInt8} (h : n = b.toNat) : UInt8.ofNat n = b := by
  rw [h, UInt8.ofNat_toNat]

theorem sequenceLength_two {a : UInt8} (h : a.toNat < 0xE0) : sequenceLength a = 2 := by
  rw [sequenceLength_eq, if_pos h]

theorem sequenceLength_three {a : UInt8} (hlo : 0xE0 ≤ a.toNat) (hhi : a.toNat < 0xF0) :
    sequenceLength a = 3 := by
  rw [sequenceLength_eq, if_neg (by omega), if_pos hhi]

theorem sequenceLength_four {a : UInt8} (h : 0xF0 ≤ a.toNat) : sequenceLength a = 4 := by
  rw [sequenceLength_eq, if_neg (by omega), if_neg (by omega)]

theorem encode_two {a b : UInt8} (hlo : 0xC2 ≤ a.toNat) (hhi : a.toNat < 0xE0)
    (hb : isContinuation b = true) : String.utf8EncodeChar (assemble a [b]) = [a, b] := by
  rw [isContinuation_iff] at hb
  have hn : (assemble a [b]).toNat = a.toNat % 32 * 64 + b.toNat % 64 := by
    rw [assemble, sequenceLength_two hhi]
    exact toNat_ofNat (.inl (by change a.toNat % 32 * 64 + b.toNat % 64 < 55296; omega))
  unfold String.utf8EncodeChar
  simp only [show (assemble a [b]).val.toNat = (assemble a [b]).toNat from rfl, hn]
  rw [if_neg (by omega), if_pos (by omega), byte_eq (b := a) (by omega), byte_eq (b := b) (by omega)]

theorem encode_three {a b c : UInt8} (hlo : 0xE0 ≤ a.toNat) (hhi : a.toNat < 0xF0)
    (hb : maySecond a b = true) (hc : isContinuation c = true) :
    String.utf8EncodeChar (assemble a [b, c]) = [a, b, c] := by
  rw [isContinuation_iff] at hc
  obtain ⟨hb, hE0, hED, -, -⟩ := maySecond_toNat hb
  have hn : (assemble a [b, c]).toNat =
      (a.toNat % 16 * 64 + b.toNat % 64) * 64 + c.toNat % 64 := by
    rw [assemble, sequenceLength_three hlo hhi]
    -- The lead byte 0xED keeps below the surrogate halves, all above it beyond them.
    apply toNat_ofNat
    change (a.toNat % 16 * 64 + b.toNat % 64) * 64 + c.toNat % 64 < 55296 ∨
      57343 < (a.toNat % 16 * 64 + b.toNat % 64) * 64 + c.toNat % 64 ∧
        (a.toNat % 16 * 64 + b.toNat % 64) * 64 + c.toNat % 64 < 1114112
    omega
  unfold String.utf8EncodeChar
  simp only [show (assemble a [b, c]).val.toNat = (assemble a [b, c]).toNat from rfl, hn]
  rw [if_neg (by omega), if_neg (by omega), if_pos (by omega), byte_eq (b := a) (by omega),
    byte_eq (b := b) (by omega), byte_eq (b := c) (by omega)]

theorem encode_four {a b c d : UInt8} (hlo : 0xF0 ≤ a.toNat) (hhi : a.toNat < 0xF5)
    (hb : maySecond a b = true) (hc : isContinuation c = true) (hd : isContinuation d = true) :
    String.utf8EncodeChar (assemble a [b, c, d]) = [a, b, c, d] := by
  rw [isContinuation_iff] at hc hd
  obtain ⟨hb, -, -, hF0, hF4⟩ := maySecond_toNat hb
  have hn : (assemble a [b, c, d]).toNat =
      ((a.toNat % 8 * 64 + b.toNat % 64) * 64 + c.toNat % 64) * 64 + d.toNat % 64 := by
    rw [assemble, sequenceLength_four hlo]
    apply toNat_ofNat
    change _ ∨ 57343 < ((a.toNat % 8 * 64 + b.toNat % 64) * 64 + c.toNat % 64) * 64 + d.toNat % 64 ∧
      ((a.toNat % 8 * 64 + b.toNat % 64) * 64 + c.toNat % 64) * 64 + d.toNat % 64 < 1114112
    omega
  unfold String.utf8EncodeChar
  simp only [show (assemble a [b, c, d]).val.toNat = (assemble a [b, c, d]).toNat from rfl, hn]
  rw [if_neg (by omega), if_neg (by omega), if_neg (by omega), byte_eq (b := a) (by omega),
    byte_eq (b := b) (by omega), byte_eq (b := c) (by omega), byte_eq (b := d) (by omega)]

/-! ## 2. One byte more -/

/-- The bytes of a sequence under way: a lead byte, and fewer continuations than it asks for. -/
inductive Pending : Bytes → Prop
  | none : Pending []
  | lead {a : UInt8} : 0xC2 ≤ a.toNat → a.toNat < 0xF5 → Pending [a]
  | second {a b : UInt8} : 0xE0 ≤ a.toNat → a.toNat < 0xF5 → maySecond a b = true → Pending [a, b]
  | third {a b c : UInt8} : 0xF0 ≤ a.toNat → a.toNat < 0xF5 → maySecond a b = true →
    isContinuation c = true → Pending [a, b, c]

/-- Ill-formed bytes are never ASCII. -/
def Chunk.High : Chunk → Prop
  | .char _ => True
  | .flawed bs _ => ∀ b ∈ bs, 0x80 ≤ b.toNat

theorem Pending.high {p : Bytes} (h : Pending p) : ∀ b ∈ p, 0x80 ≤ b.toNat := by
  cases h with
  | none => exact nofun
  | lead hlo _ => simp; omega
  | second hlo _ hb =>
    have := (maySecond_toNat hb).1
    simp
    omega
  | third hlo _ hb hc =>
    have := (maySecond_toNat hb).1
    rw [isContinuation_iff] at hc
    simp
    omega

/-- What a byte leads to: `x` are the chunks that end with it and the sequence then under way. -/
structure Accounts (x : List Chunk × Bytes) (bytes : Bytes) : Prop where
  bytes : x.1.flatMap Chunk.bytes ++ x.2 = bytes
  pending : Pending x.2
  high : ∀ c ∈ x.1, c.High

theorem start_accounts (b : UInt8) : Accounts (start b) [b] := by
  by_cases hascii : b.toNat < 0x80
  · rw [start_ascii hascii]
    refine ⟨?_, .none, by simp [Chunk.High]⟩
    have hn : (Char.ofNat b.toNat).toNat = b.toNat := toNat_ofNat (.inl (by omega))
    simp only [Chunk.bytes, List.flatMap_cons, List.flatMap_nil, List.append_nil]
    unfold String.utf8EncodeChar
    simp only [show (Char.ofNat b.toNat).val.toNat = (Char.ofNat b.toNat).toNat from rfl, hn]
    rw [if_pos (by omega), UInt8.ofNat_toNat]
  · by_cases hlead : 0xC2 ≤ b.toNat ∧ b.toNat < 0xF5
    · rw [start_lead hlead.1 hlead.2]
      exact ⟨rfl, .lead hlead.1 hlead.2, List.forall_mem_nil _⟩
    · have hstart : start b = ([.flawed [b] .invalidStart], []) := by
        have h1 : ¬ b < 0x80 := by rw [UInt8.lt_iff_toNat_lt]; exact hascii
        have h2 : b < 0xC2 ∨ 0xF5 ≤ b := by
          rw [UInt8.lt_iff_toNat_lt, UInt8.le_iff_toNat_le]
          change b.toNat < 194 ∨ 245 ≤ b.toNat
          omega
        simp [start, h1, h2]
      rw [hstart]
      exact ⟨rfl, .none, by simpa [Chunk.High] using hascii⟩

/-- A byte that does not fit ends the sequence before it. -/
theorem step_rejected {a b : UInt8} {rest : Bytes} (h : Pending (a :: rest))
    (hb : (if rest = [] then maySecond a b else isContinuation b) = false) :
    Accounts (step (a :: rest) b) (a :: rest ++ [b]) := by
  have hstart := start_accounts b
  have hstep : step (a :: rest) b =
      (.flawed (a :: rest) .invalidContinuation :: (start b).1, (start b).2) := by
    simp only [step, hb, Bool.false_eq_true, if_false]
  rw [hstep]
  refine ⟨?_, hstart.pending, List.forall_mem_cons.2 ⟨h.high, hstart.high⟩⟩
  rw [List.flatMap_cons, List.append_assoc, hstart.bytes]
  rfl

theorem step_accounts {p : Bytes} (h : Pending p) (b : UInt8) : Accounts (step p b) (p ++ [b]) := by
  -- By how far the sequence is; a byte that fits goes on or completes it.
  cases h with
  | none => exact start_accounts b
  | @lead a hlo hhi =>
    cases hb : maySecond a b with
    | false => exact step_rejected (.lead hlo hhi) hb
    | true =>
      have hcont := (Bool.and_eq_true _ _ ▸ hb : isContinuation b = true ∧ _).1
      have hstep : step [a] b = _ := step_accepted hb
      rw [hstep]
      by_cases htwo : a.toNat < 0xE0
      · rw [if_pos (by rw [sequenceLength_two htwo]; rfl)]
        exact ⟨by simp [Chunk.bytes, encode_two hlo htwo hcont], .none, by simp [Chunk.High]⟩
      · rw [if_neg (by rw [sequenceLength_eq, if_neg htwo]; split <;> simp)]
        exact ⟨rfl, .second (by omega) hhi hb, List.forall_mem_nil _⟩
  | @second a x hlo hhi hx =>
    cases hb : isContinuation b with
    | false => exact step_rejected (.second hlo hhi hx) hb
    | true =>
      have hstep : step [a, x] b = _ := step_accepted hb
      rw [hstep]
      by_cases hthree : a.toNat < 0xF0
      · rw [if_pos (by rw [sequenceLength_three hlo hthree]; rfl)]
        exact ⟨by simp [Chunk.bytes, encode_three hlo hthree hx hb], .none, by simp [Chunk.High]⟩
      · rw [if_neg (by rw [sequenceLength_four (by omega)]; simp)]
        exact ⟨rfl, .third (by omega) hhi hx hb, List.forall_mem_nil _⟩
  | @third a x y hlo hhi hx hy =>
    cases hb : isContinuation b with
    | false => exact step_rejected (.third hlo hhi hx hy) hb
    | true =>
      have hstep : step [a, x, y] b = _ := step_accepted hb
      rw [hstep, if_pos (by rw [sequenceLength_four hlo]; rfl)]
      exact ⟨by simp [Chunk.bytes, encode_four hlo hhi hx hy hb], .none, by simp [Chunk.High]⟩

/-! ## 3. All bytes -/

theorem chunksAfter_bytes {p : Bytes} (h : Pending p) (s : Bytes) :
    (chunksAfter p s).flatMap Chunk.bytes = p ++ s := by
  induction s generalizing p with
  | nil => cases h <;> rfl
  | cons b s ih =>
    have hstep := step_accounts h b
    rw [chunksAfter_cons, List.flatMap_append, ih hstep.pending, ← List.append_assoc, hstep.bytes]
    simp

theorem chunksAfter_high {p : Bytes} (h : Pending p) (s : Bytes) : ∀ c ∈ chunksAfter p s, c.High := by
  induction s generalizing p with
  | nil =>
    cases p with
    | nil => exact nofun
    | cons a rest => exact List.forall_mem_singleton.2 h.high
  | cons b s ih =>
    have hstep := step_accounts h b
    rw [chunksAfter_cons]
    exact List.forall_mem_append.2 ⟨hstep.high, ih hstep.pending⟩

theorem charsOfChunks_eq_ok {position : Nat} {xs : List Chunk} {cs : List Char}
    (h : charsOfChunks position xs = .ok cs) : xs = cs.map .char := by
  induction xs generalizing position cs with
  | nil => cases h; rfl
  | cons x xs ih =>
    cases x with
    | flawed bs flaw => contradiction
    | char c =>
      simp only [charsOfChunks] at h
      split at h
      next t ht => cases h; rw [ih ht]; rfl
      next => contradiction

/-- Strict decoding accepts the encodings of characters and nothing else. -/
theorem decode_eq_ok_iff {s : Bytes} {cs : List Char} : decode s = .ok cs ↔ s = encodeChars cs := by
  constructor
  · intro h
    have hbytes : (chunks s).flatMap Chunk.bytes = s := chunksAfter_bytes .none s
    rw [← hbytes, charsOfChunks_eq_ok h, List.flatMap_map]
    rfl
  · rintro rfl
    exact decode_encodeChars cs

/-! ## 4. File names -/

theorem strayByte?_strayHalf {b : UInt8} (h : 0x80 ≤ b.toNat) : strayByte? (strayHalf b) = some b := by
  have hlt := b.toNat_lt
  simp only [strayByte?, strayHalf]
  rw [if_pos (by omega)]
  exact congrArg some (byte_eq (by omega))

/-- The code points that a chunk of a file name is shown as. -/
def Chunk.points : Chunk → Text
  | .char c => [.char c]
  | .flawed bs _ => bs.map strayHalf

theorem decodeSystem_eq (s : Bytes) : decodeSystem s = (chunks s).flatMap Chunk.points := rfl

theorem Chunk.High.encodeSystem_points {x : Chunk} (h : x.High) : encodeSystem x.points = x.bytes := by
  cases x with
  | char c => simp [Chunk.points, encodeSystem, systemPoint, Chunk.bytes]
  | flawed bs flaw =>
    -- Byte by byte: each half stands for the byte that it was made from.
    have hpoint : ∀ b ∈ bs, systemPoint (strayHalf b) = [b] := by
      intro b hb
      change (strayByte? (strayHalf b)).toList = [b]
      rw [strayByte?_strayHalf (h b hb)]
      rfl
    change (bs.map strayHalf).flatMap systemPoint = bs
    rw [List.flatMap_map, List.flatMap_def, List.map_congr_left hpoint, ← List.flatMap_def,
      List.flatMap_singleton']

/-- The text of a file name stands for the bytes of the name. -/
theorem encodeSystem_decodeSystem (s : Bytes) : encodeSystem (decodeSystem s) = s := by
  have hbytes : (chunks s).flatMap Chunk.bytes = s := chunksAfter_bytes .none s
  have hhigh : ∀ x ∈ chunks s, x.High := chunksAfter_high .none s
  calc encodeSystem (decodeSystem s)
      = (chunks s).flatMap fun x => encodeSystem x.points := by
        rw [decodeSystem_eq, encodeSystem, List.flatMap_assoc]
        rfl
    _ = (chunks s).flatMap Chunk.bytes := by
        rw [List.flatMap_def, List.flatMap_def,
          List.map_congr_left fun x hx => (hhigh x hx).encodeSystem_points]
    _ = s := hbytes

theorem decodeSystem_injective {s t : Bytes} (h : decodeSystem s = decodeSystem t) : s = t := by
  rw [← encodeSystem_decodeSystem s, h, encodeSystem_decodeSystem]

/-- Every file name has a text that the operating system takes. -/
theorem systemError?_decodeSystem (s : Bytes) : systemError? (decodeSystem s) = none := by
  rw [systemError?, refusedRun_eq_none_iff, decodeSystem_eq]
  intro p hp
  obtain ⟨x, hx, hpx⟩ := List.mem_flatMap.1 hp
  have hhigh : x.High := chunksAfter_high .none s x hx
  cases x with
  | char c =>
    rw [List.mem_singleton.1 hpx]
    rfl
  | flawed bs flaw =>
    obtain ⟨b, hb, rfl⟩ := List.mem_map.1 hpx
    rw [strayByte?_strayHalf (hhigh b hb)]
    rfl

end Utf8
end GoldenCheck
