import GoldenCheck.Text.LineEnding
import GoldenCheck.Text.Utf8

/-!
# Encoding and decoding are inverse

A text has an encoding exactly if it holds no surrogate half. The bytes of a character are one chunk,
whatever bytes follow, so strict decoding gives back the characters that were encoded; a text without
CR also survives the unification of line endings.
-/

namespace GoldenCheck

/-! ## 1. Texts that have an encoding -/

/-- No surrogate half stands in the text. -/
def Text.Encodable (t : Text) : Prop := ∀ p ∈ t, p.isSurrogate = false

instance (t : Text) : Decidable t.Encodable :=
  inferInstanceAs (Decidable (∀ p ∈ t, p.isSurrogate = false))

@[simp] theorem Text.encodable_append (s t : Text) :
    Text.Encodable (s ++ t) ↔ s.Encodable ∧ t.Encodable := by
  simp only [Text.Encodable, List.mem_append]
  exact ⟨fun h => ⟨fun p hp => h p (.inl hp), fun p hp => h p (.inr hp)⟩,
    fun h p hp => hp.elim (h.1 p) (h.2 p)⟩

theorem Text.encodable_ofChars (cs : List Char) : (Text.ofChars cs).Encodable := by
  intro p hp
  obtain ⟨c, _, rfl⟩ := List.mem_map.1 hp
  rfl

theorem Text.Encodable.exists_chars {t : Text} (h : t.Encodable) : ∃ cs, t = Text.ofChars cs := by
  induction t with
  | nil => exact ⟨[], rfl⟩
  | cons p t ih =>
    obtain ⟨cs, rfl⟩ := ih fun q hq => h q (List.mem_cons_of_mem _ hq)
    cases p with
    | char c => exact ⟨c :: cs, rfl⟩
    | surrogate k => exact absurd (h (.surrogate k) List.mem_cons_self) Bool.noConfusion

theorem Text.ofChars_injective {cs ds : List Char} (h : Text.ofChars cs = Text.ofChars ds) :
    cs = ds :=
  (List.map_inj_right fun _ _ hc => CodePoint.char.inj hc).1 h

namespace Utf8

theorem refusedRun_eq_none_iff (encodable : CodePoint → Bool) (position : Nat) (t : Text) :
    refusedRun encodable position t = none ↔ ∀ p ∈ t, encodable p = true := by
  -- The position only goes into the error.
  induction t generalizing position with
  | nil => simp [refusedRun]
  | cons p t ih =>
    simp only [refusedRun, List.mem_cons, forall_eq_or_imp]
    split
    next h => rw [ih]; simp [h]
    next h => simp [h]

theorem encodeError?_eq_none_iff (t : Text) : encodeError? t = none ↔ t.Encodable := by
  rw [encodeError?, refusedRun_eq_none_iff]
  simp [Text.Encodable]

theorem flatMap_pointBytes_ofChars (cs : List Char) :
    (Text.ofChars cs).flatMap pointBytes = encodeChars cs := by
  induction cs with
  | nil => rfl
  | cons c cs ih =>
    change String.utf8EncodeChar c ++ (Text.ofChars cs).flatMap pointBytes = _
    rw [ih]
    rfl

theorem encode_ofChars (cs : List Char) : encode (Text.ofChars cs) = .ok (encodeChars cs) := by
  have h : encodeError? (Text.ofChars cs) = none :=
    (encodeError?_eq_none_iff _).2 (Text.encodable_ofChars cs)
  simp only [encode, h, flatMap_pointBytes_ofChars]

/-! ## 2. The bytes of a character are one chunk -/

theorem start_ascii {b : UInt8} (h : b.toNat < 0x80) :
    start b = ([.char (Char.ofNat b.toNat)], []) := by
  have hb : b < 0x80 := UInt8.lt_iff_toNat_lt.2 h
  simp [start, hb]

theorem start_lead {b : UInt8} (hlo : 0xC2 ≤ b.toNat) (hhi : b.toNat < 0xF5) :
    start b = ([], [b]) := by
  -- Comparisons of bytes are moved to their numbers, where `omega` settles them.
  have h1 : ¬ b < 0x80 := by rw [UInt8.lt_iff_toNat_lt]; change ¬ b.toNat < 128; omega
  have h2 : ¬ b < 0xC2 := by rw [UInt8.lt_iff_toNat_lt]; change ¬ b.toNat < 194; omega
  have h3 : ¬ 0xF5 ≤ b := by rw [UInt8.le_iff_toNat_le]; change ¬ 245 ≤ b.toNat; omega
  simp [start, h1, h2, h3]

theorem isContinuation_iff (b : UInt8) :
    isContinuation b = true ↔ 0x80 ≤ b.toNat ∧ b.toNat < 0xC0 := by
  simp [isContinuation, UInt8.le_iff_toNat_le, UInt8.lt_iff_toNat_lt]

theorem maySecond_of_toNat {a b : UInt8} (hb : isContinuation b = true)
    (hE0 : a.toNat = 0xE0 → 0xA0 ≤ b.toNat) (hED : a.toNat = 0xED → b.toNat < 0xA0)
    (hF0 : a.toNat = 0xF0 → 0x90 ≤ b.toNat) (hF4 : a.toNat = 0xF4 → b.toNat < 0x90) :
    maySecond a b = true := by
  -- Four lead bytes restrict the second byte; each restriction is one of the hypotheses.
  rw [maySecond, hb, Bool.true_and]
  split
  next h => subst h; simpa [UInt8.le_iff_toNat_le] using hE0 rfl
  split
  next h => subst h; simpa [UInt8.lt_iff_toNat_lt] using hED rfl
  split
  next h => subst h; simpa [UInt8.le_iff_toNat_le] using hF0 rfl
  split
  next h => subst h; simpa [UInt8.lt_iff_toNat_lt] using hF4 rfl
  rfl

theorem step_accepted {a b : UInt8} {rest : Bytes}
    (h : (if rest = [] then maySecond a b else isContinuation b) = true) :
    step (a :: rest) b =
      if rest.length + 2 = sequenceLength a then ([.char (assemble a (rest ++ [b]))], [])
      else ([], a :: rest ++ [b]) := by
  simp only [step, h, ↓reduceIte]

theorem sequenceLength_eq (a : UInt8) :
    sequenceLength a = if a.toNat < 0xE0 then 2 else if a.toNat < 0xF0 then 3 else 4 := by
  simp [sequenceLength, UInt8.lt_iff_toNat_lt]

theorem chunksAfter_cons (pending : Bytes) (b : UInt8) (s : Bytes) :
    chunksAfter pending (b :: s) =
      (step pending b).1 ++ chunksAfter (step pending b).2 s := by
  cases pending <;> rfl

theorem chunksAfter_lead {a : UInt8} (s : Bytes) (hlo : 0xC2 ≤ a.toNat) (hhi : a.toNat < 0xF5) :
    chunksAfter [] (a :: s) = chunksAfter [a] s := by
  rw [chunksAfter_cons, show step [] a = start a from rfl, start_lead hlo hhi]
  rfl

theorem chunksAfter_more {a b : UInt8} (rest s : Bytes)
    (hb : (if rest = [] then maySecond a b else isContinuation b) = true)
    (hlen : rest.length + 2 ≠ sequenceLength a) :
    chunksAfter (a :: rest) (b :: s) = chunksAfter (a :: (rest ++ [b])) s := by
  rw [chunksAfter_cons, step_accepted hb, if_neg hlen]
  rfl

theorem chunksAfter_last {a b : UInt8} (rest s : Bytes)
    (hb : (if rest = [] then maySecond a b else isContinuation b) = true)
    (hlen : rest.length + 2 = sequenceLength a) :
    chunksAfter (a :: rest) (b :: s) =
      .char (assemble a (rest ++ [b])) :: chunksAfter [] s := by
  rw [chunksAfter_cons, step_accepted hb, if_pos hlen]
  rfl

/-- A continuation byte with the low bits `y`. -/
theorem continuation_toNat {y : Nat} (hy : y < 64) : (UInt8.ofNat (y + 0x80)).toNat = y + 0x80 := by
  rw [UInt8.toNat_ofNat']
  omega

theorem isContinuation_ofNat {y : Nat} (hy : y < 64) :
    isContinuation (UInt8.ofNat (y + 0x80)) = true := by
  rw [isContinuation_iff, continuation_toNat hy]
  omega

theorem chunksAfter_two {x y : Nat} (s : Bytes) (hlo : 2 ≤ x) (hhi : x < 32) (hy : y < 64) :
    chunksAfter [] (UInt8.ofNat (x + 0xC0) :: UInt8.ofNat (y + 0x80) :: s) =
      .char (Char.ofNat (x * 64 + y)) :: chunksAfter [] s := by
  have ha : (UInt8.ofNat (x + 0xC0)).toNat = x + 0xC0 := by rw [UInt8.toNat_ofNat']; omega
  have hlen : sequenceLength (UInt8.ofNat (x + 0xC0)) = 2 := by
    rw [sequenceLength_eq, ha, if_pos (by omega)]
  have hb : maySecond (UInt8.ofNat (x + 0xC0)) (UInt8.ofNat (y + 0x80)) = true :=
    maySecond_of_toNat (isContinuation_ofNat hy) (by omega) (by omega) (by omega) (by omega)
  rw [chunksAfter_lead _ (by omega) (by omega), chunksAfter_last [] s hb hlen.symm, assemble, hlen,
    ha]
  simp only [List.nil_append, List.foldl_cons, List.foldl_nil, continuation_toNat hy]
  -- The low bits of the lead byte and of the continuation are put back in their places.
  rw [show Nat.pow 2 (7 - 2) = 32 from rfl,
    show (x + 0xC0) % 32 * 64 + (y + 0x80) % 64 = x * 64 + y by omega]

theorem chunksAfter_three {x y z : Nat} (s : Bytes) (hx : x < 16) (hy : y < 64) (hz : z < 64)
    (hE0 : x = 0 → 32 ≤ y) (hED : x = 13 → y < 32) :
    chunksAfter [] (UInt8.ofNat (x + 0xE0) :: UInt8.ofNat (y + 0x80) :: UInt8.ofNat (z + 0x80) :: s) =
      .char (Char.ofNat ((x * 64 + y) * 64 + z)) :: chunksAfter [] s := by
  have ha : (UInt8.ofNat (x + 0xE0)).toNat = x + 0xE0 := by rw [UInt8.toNat_ofNat']; omega
  have hlen : sequenceLength (UInt8.ofNat (x + 0xE0)) = 3 := by
    rw [sequenceLength_eq, ha, if_neg (by omega), if_pos (by omega)]
  -- The lead bytes 0xE0 and 0xED are those with `x = 0` and `x = 13`.
  have hb : maySecond (UInt8.ofNat (x + 0xE0)) (UInt8.ofNat (y + 0x80)) = true := by
    refine maySecond_of_toNat (isContinuation_ofNat hy) ?_ ?_ ?_ ?_ <;>
      rw [ha, continuation_toNat hy] <;> omega
  rw [chunksAfter_lead _ (by omega) (by omega),
    chunksAfter_more [] _ hb (by rw [hlen]; decide), List.nil_append,
    chunksAfter_last [_] s (isContinuation_ofNat hz) hlen.symm, assemble, hlen, ha]
  simp only [List.nil_append, List.cons_append, List.foldl_cons, List.foldl_nil,
    continuation_toNat hy, continuation_toNat hz]
  rw [show Nat.pow 2 (7 - 3) = 16 from rfl,
    show ((x + 0xE0) % 16 * 64 + (y + 0x80) % 64) * 64 + (z + 0x80) % 64 =
      (x * 64 + y) * 64 + z by omega]

theorem chunksAfter_four {x y z w : Nat} (s : Bytes) (hx : x < 5) (hy : y < 64) (hz : z < 64)
    (hw : w < 64) (hF0 : x = 0 → 16 ≤ y) (hF4 : x = 4 → y < 16) :
    chunksAfter [] (UInt8.ofNat (x + 0xF0) :: UInt8.ofNat (y + 0x80) :: UInt8.ofNat (z + 0x80) ::
        UInt8.ofNat (w + 0x80) :: s) =
      .char (Char.ofNat (((x * 64 + y) * 64 + z) * 64 + w)) :: chunksAfter [] s := by
  have ha : (UInt8.ofNat (x + 0xF0)).toNat = x + 0xF0 := by rw [UInt8.toNat_ofNat']; omega
  have hlen : sequenceLength (UInt8.ofNat (x + 0xF0)) = 4 := by
    rw [sequenceLength_eq, ha, if_neg (by omega), if_neg (by omega)]
  -- The lead bytes 0xF0 and 0xF4 are those with `x = 0` and `x = 4`.
  have hb : maySecond (UInt8.ofNat (x + 0xF0)) (UInt8.ofNat (y + 0x80)) = true := by
    refine maySecond_of_toNat (isContinuation_ofNat hy) ?_ ?_ ?_ ?_ <;>
      rw [ha, continuation_toNat hy] <;> omega
  rw [chunksAfter_lead _ (by omega) (by omega),
    chunksAfter_more [] _ hb (by rw [hlen]; decide), List.nil_append,
    chunksAfter_more [_] _ (isContinuation_ofNat hz) (by rw [hlen]; simp), List.singleton_append,
    chunksAfter_last [_, _] s (isContinuation_ofNat hw) hlen.symm, assemble, hlen, ha]
  simp only [List.nil_append, List.cons_append, List.foldl_cons, List.foldl_nil,
    continuation_toNat hy, continuation_toNat hz, continuation_toNat hw]
  rw [show Nat.pow 2 (7 - 4) = 8 from rfl,
    show (((x + 0xF0) % 8 * 64 + (y + 0x80) % 64) * 64 + (z + 0x80) % 64) * 64 +
      (w + 0x80) % 64 = ((x * 64 + y) * 64 + z) * 64 + w by omega]

/-- The bytes of a character are read as that character, whatever follows them. -/
theorem chunksAfter_encodeChar (c : Char) (s : Bytes) :
    chunksAfter [] (String.utf8EncodeChar c ++ s) = .char c :: chunksAfter [] s := by
  have hvalid : c.toNat < 0xD800 ∨ 0xDFFF < c.toNat ∧ c.toNat < 0x110000 := c.valid
  have hback : Char.ofNat c.toNat = c := Char.ofNat_toNat c
  -- The encoder has one branch for each length, split at 0x80, 0x800 and 0x10000.
  unfold String.utf8EncodeChar
  simp only [show c.val.toNat = c.toNat from rfl]
  split
  next h1 =>
    have ha : (UInt8.ofNat c.toNat).toNat = c.toNat := by rw [UInt8.toNat_ofNat']; omega
    rw [List.singleton_append, chunksAfter_cons, show step [] (UInt8.ofNat c.toNat) = start _ from rfl,
      start_ascii (by omega), ha, hback]
    rfl
  split
  next h1 h2 =>
    rw [List.cons_append, List.singleton_append,
      chunksAfter_two s (by omega) (by omega) (by omega),
      show c.toNat / 64 % 32 * 64 + c.toNat % 64 = c.toNat by omega, hback]
  split
  next h1 h2 h3 =>
    -- That surrogate halves are no characters is what 0xED asks of its second byte.
    rw [List.cons_append, List.cons_append, List.singleton_append,
      chunksAfter_three s (by omega) (by omega) (by omega) (by omega) (by omega),
      show (c.toNat / 4096 % 16 * 64 + c.toNat / 64 % 64) * 64 + c.toNat % 64 = c.toNat by omega,
      hback]
  next h1 h2 h3 =>
    rw [List.cons_append, List.cons_append, List.cons_append, List.singleton_append,
      chunksAfter_four s (by omega) (by omega) (by omega) (by omega) (by omega) (by omega),
      show ((c.toNat / 262144 % 8 * 64 + c.toNat / 4096 % 64) * 64 + c.toNat / 64 % 64) * 64 +
        c.toNat % 64 = c.toNat by omega, hback]

/-! ## 3. Round trips -/

theorem chunks_encodeChars (cs : List Char) : chunks (encodeChars cs) = cs.map .char := by
  induction cs with
  | nil => rfl
  | cons c cs ih =>
    -- After a character no sequence is under way, so the rest is decoded from the start state.
    change chunksAfter [] (String.utf8EncodeChar c ++ encodeChars cs) = _
    rw [chunksAfter_encodeChar]
    exact congrArg _ ih

theorem charsOfChunks_map_char (position : Nat) (cs : List Char) :
    charsOfChunks position (cs.map .char) = .ok cs := by
  induction cs generalizing position with
  | nil => rfl
  | cons c cs ih => simp only [List.map_cons, charsOfChunks, ih]

theorem decode_encodeChars (cs : List Char) : decode (encodeChars cs) = .ok cs := by
  rw [decode, chunks_encodeChars, charsOfChunks_map_char]

end Utf8

theorem unifyLineEndings_eq_self {cs : List Char} (h : '\r' ∉ cs) : unifyLineEndings cs = cs := by
  fun_induction unifyLineEndings cs with
  | case1 => rfl
  | case2 s ih => exact absurd List.mem_cons_self h
  | case3 c s _ ih =>
    rw [List.mem_cons, not_or] at h
    rw [ih h.2, if_neg (Ne.symm h.1)]

/-! ## 4. Texts that a file gives back -/

/-- Neither a surrogate half nor a CR stands in the text. -/
def Text.Plain (t : Text) : Prop := ∀ p ∈ t, p.isSurrogate = false ∧ p ≠ .char '\r'

instance (t : Text) : Decidable t.Plain :=
  inferInstanceAs (Decidable (∀ p ∈ t, p.isSurrogate = false ∧ p ≠ .char '\r'))

theorem Text.Plain.append {s t : Text} (hs : s.Plain) (ht : t.Plain) : Text.Plain (s ++ t) :=
  fun p hp => (List.mem_append.1 hp).elim (hs p) (ht p)

theorem Text.plain_ofChars {cs : List Char} (h : '\r' ∉ cs) : (Text.ofChars cs).Plain := by
  intro p hp
  obtain ⟨c, hc, rfl⟩ := List.mem_map.1 hp
  exact ⟨rfl, fun he => h (CodePoint.char.inj he ▸ hc)⟩

/-- A plain text is written and read as it is. -/
theorem Text.Plain.read_back {t : Text} (h : t.Plain) :
    ∃ content cs, Utf8.encode t = .ok content ∧ Utf8.decode content = .ok cs ∧
      Text.ofChars (unifyLineEndings cs) = t := by
  have henc : t.Encodable := fun p hp => (h p hp).1
  obtain ⟨cs, rfl⟩ := henc.exists_chars
  have hcr : '\r' ∉ cs := fun hm => (h _ (List.mem_map_of_mem hm)).2 rfl
  refine ⟨Utf8.encodeChars cs, cs, Utf8.encode_ofChars cs, Utf8.decode_encodeChars cs, ?_⟩
  rw [unifyLineEndings_eq_self hcr]

end GoldenCheck
