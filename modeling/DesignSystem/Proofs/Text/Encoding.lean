import DesignSystem.Proofs.Outcome
import DesignSystem.Text.Newline
import DesignSystem.Text.Utf8

/-! # Text through bytes and line ends

* `Utf8.decode_encode`: the bytes of a text are read as the text.
* `Utf8.decode_eq_ok`: no other bytes are.
* `Utf8.length_decodeFrom_le`: a text has no more characters than bytes.
* `universalNewlines_of_not_mem`: a text without carriage returns keeps its line ends.
* `lineAndColumn_le`: lines and columns are bounded by the length of the text.
-/

namespace DesignSystem
set_option autoImplicit false

namespace Utf8

/-! ## Bytes -/

theorem toNat_ofNat {n : Nat} (h : n < 0x100) : (UInt8.ofNat n).toNat = n := by
  rw [UInt8.toNat_ofNat']
  exact Nat.mod_eq_of_lt h

theorem not_lt_of_toNat {a b : UInt8} (h : b.toNat ≤ a.toNat) : ¬ a < b := by
  rw [UInt8.lt_iff_toNat_lt]
  exact Nat.not_lt.mpr h

theorem isContinuation_ofNat {n : Nat} (h : n < 64) :
    isContinuation (.ofNat (0x80 + n)) = true := by
  have bytes := toNat_ofNat (n := 0x80 + n) (by omega)
  simp only [isContinuation, Bool.and_eq_true, decide_eq_true_eq, UInt8.le_iff_toNat_le,
    UInt8.lt_iff_toNat_lt, bytes]
  constructor
  · exact Nat.le_add_right 0x80 n
  · exact Nat.add_lt_add_left h 0x80

theorem toNat_beq (a b : UInt8) : (a == b) = (a.toNat == b.toNat) := by
  rw [Bool.eq_iff_iff]
  simp [UInt8.toNat_inj]

theorem isSecond_ofNat {lead n : Nat} (hlead : lead < 0x100) (h : n < 64)
    (short3 : lead = 0xE0 → 0x20 ≤ n) (surrogate : lead = 0xED → n < 0x20)
    (short4 : lead = 0xF0 → 0x10 ≤ n) (beyond : lead = 0xF4 → n < 0x10) :
    isSecond (.ofNat lead) (.ofNat (0x80 + n)) = true := by
  have leadByte := toNat_ofNat hlead
  have bytes := toNat_ofNat (n := 0x80 + n) (by omega)
  simp only [isSecond, isContinuation_ofNat h, Bool.true_and, toNat_beq, leadByte,
    UInt8.le_iff_toNat_le, UInt8.lt_iff_toNat_lt, bytes, UInt8.reduceToNat, beq_iff_eq]
  grind

/-! ## One character -/

theorem decodeFrom_one (position : Nat) {a : UInt8} (h : a.toNat < 0x80) (rest : Bytes) :
    decodeFrom position (a :: rest) =
      (decodeFrom (position + 1) rest).map (join a.toNat [] :: ·) := by
  have ascii : a < 0x80 := UInt8.lt_iff_toNat_lt.mpr h
  rw [decodeFrom.eq_def]
  simp only [ascii, if_true]
  cases decodeFrom (position + 1) rest <;> rfl

theorem decodeFrom_two (position : Nat) {a b : UInt8} (lower : 0xC2 ≤ a.toNat)
    (upper : a.toNat < 0xE0) (hb : isContinuation b = true) (rest : Bytes) :
    decodeFrom position (a :: b :: rest) =
      (decodeFrom (position + 2) rest).map (join (a.toNat - 0xC0) [b] :: ·) := by
  have ascii : ¬ a < 0x80 := not_lt_of_toNat (Nat.le_trans (by decide) lower)
  have start : ¬ a < 0xC2 := not_lt_of_toNat (Nat.le_trans (by decide) lower)
  have two : a < 0xE0 := UInt8.lt_iff_toNat_lt.mpr upper
  rw [decodeFrom.eq_def]
  simp only [ascii, start, two, hb, if_true, if_false]
  cases decodeFrom (position + 2) rest <;> rfl

theorem decodeFrom_three (position : Nat) {a b c : UInt8} (lower : 0xE0 ≤ a.toNat)
    (upper : a.toNat < 0xF0) (hb : isSecond a b = true) (hc : isContinuation c = true)
    (rest : Bytes) :
    decodeFrom position (a :: b :: c :: rest) =
      (decodeFrom (position + 3) rest).map (join (a.toNat - 0xE0) [b, c] :: ·) := by
  have ascii : ¬ a < 0x80 := not_lt_of_toNat (Nat.le_trans (by decide) lower)
  have start : ¬ a < 0xC2 := not_lt_of_toNat (Nat.le_trans (by decide) lower)
  have two : ¬ a < 0xE0 := not_lt_of_toNat (Nat.le_trans (by decide) lower)
  have three : a < 0xF0 := UInt8.lt_iff_toNat_lt.mpr upper
  rw [decodeFrom.eq_def]
  simp only [ascii, start, two, three, hb, hc, Bool.not_true, Bool.false_eq_true, if_true,
    if_false]
  cases decodeFrom (position + 3) rest <;> rfl

theorem decodeFrom_four (position : Nat) {a b c d : UInt8} (lower : 0xF0 ≤ a.toNat)
    (upper : a.toNat < 0xF5) (hb : isSecond a b = true) (hc : isContinuation c = true)
    (hd : isContinuation d = true) (rest : Bytes) :
    decodeFrom position (a :: b :: c :: d :: rest) =
      (decodeFrom (position + 4) rest).map (join (a.toNat - 0xF0) [b, c, d] :: ·) := by
  have ascii : ¬ a < 0x80 := not_lt_of_toNat (Nat.le_trans (by decide) lower)
  have start : ¬ a < 0xC2 := not_lt_of_toNat (Nat.le_trans (by decide) lower)
  have two : ¬ a < 0xE0 := not_lt_of_toNat (Nat.le_trans (by decide) lower)
  have three : ¬ a < 0xF0 := not_lt_of_toNat (Nat.le_trans (by decide) lower)
  have four : a < 0xF5 := UInt8.lt_iff_toNat_lt.mpr upper
  rw [decodeFrom.eq_def]
  simp only [ascii, start, two, three, four, hb, hc, hd, Bool.not_true, Bool.false_eq_true,
    if_true, if_false]
  cases decodeFrom (position + 4) rest <;> rfl

theorem join_eq {lead : Nat} {continuation : List UInt8} {c : Char}
    (h : continuation.foldl (fun n b => 64 * n + (b.toNat - 0x80)) lead = c.toNat) :
    join lead continuation = c := by
  rw [join, h, Char.ofNat_toNat]

/-- The bytes of a character are read as the character, wherever they stand. -/
theorem decodeFrom_encodeChar (position : Nat) (c : Char) (rest : Bytes) :
    decodeFrom position (encodeChar c ++ rest) =
      (decodeFrom (position + (encodeChar c).length) rest).map (c :: ·) := by
  have valid : c.toNat < 0xD800 ∨ 0xDFFF < c.toNat ∧ c.toNat < 0x110000 := c.valid
  simp only [encodeChar]
  split
  · next one =>
    have lead := toNat_ofNat (n := c.toNat) (by omega)
    have char : join (UInt8.ofNat c.toNat).toNat [] = c := join_eq lead
    rw [List.singleton_append, decodeFrom_one _ (by omega), char]
    rfl
  split
  · next one two =>
    have lead := toNat_ofNat (n := 0xC0 + c.toNat / 64) (by omega)
    have last := toNat_ofNat (n := 0x80 + c.toNat % 64) (by omega)
    have char : join ((UInt8.ofNat (0xC0 + c.toNat / 64)).toNat - 0xC0)
        [.ofNat (0x80 + c.toNat % 64)] = c := by
      apply join_eq
      simp only [List.foldl_cons, List.foldl_nil, lead, last]
      omega
    rw [List.cons_append, List.singleton_append,
      decodeFrom_two _ (by omega) (by omega) (isContinuation_ofNat (by omega)), char]
    rfl
  split
  · next one two three =>
    have lead := toNat_ofNat (n := 0xE0 + c.toNat / 4096) (by omega)
    have second := toNat_ofNat (n := 0x80 + c.toNat / 64 % 64) (by omega)
    have last := toNat_ofNat (n := 0x80 + c.toNat % 64) (by omega)
    have char : join ((UInt8.ofNat (0xE0 + c.toNat / 4096)).toNat - 0xE0)
        [.ofNat (0x80 + c.toNat / 64 % 64), .ofNat (0x80 + c.toNat % 64)] = c := by
      apply join_eq
      simp only [List.foldl_cons, List.foldl_nil, lead, second, last]
      omega
    have follows : isSecond (.ofNat (0xE0 + c.toNat / 4096))
        (.ofNat (0x80 + c.toNat / 64 % 64)) = true := by
      apply isSecond_ofNat <;> omega
    rw [List.cons_append, List.cons_append, List.singleton_append,
      decodeFrom_three _ (by omega) (by omega) follows (isContinuation_ofNat (by omega)), char]
    rfl
  · next one two three =>
    have lead := toNat_ofNat (n := 0xF0 + c.toNat / 262144) (by omega)
    have second := toNat_ofNat (n := 0x80 + c.toNat / 4096 % 64) (by omega)
    have third := toNat_ofNat (n := 0x80 + c.toNat / 64 % 64) (by omega)
    have last := toNat_ofNat (n := 0x80 + c.toNat % 64) (by omega)
    have char : join ((UInt8.ofNat (0xF0 + c.toNat / 262144)).toNat - 0xF0)
        [.ofNat (0x80 + c.toNat / 4096 % 64), .ofNat (0x80 + c.toNat / 64 % 64),
          .ofNat (0x80 + c.toNat % 64)] = c := by
      apply join_eq
      simp only [List.foldl_cons, List.foldl_nil, lead, second, third, last]
      omega
    have follows : isSecond (.ofNat (0xF0 + c.toNat / 262144))
        (.ofNat (0x80 + c.toNat / 4096 % 64)) = true := by
      apply isSecond_ofNat <;> omega
    rw [List.cons_append, List.cons_append, List.cons_append, List.singleton_append,
      decodeFrom_four _ (by omega) (by omega) follows (isContinuation_ofNat (by omega))
        (isContinuation_ofNat (by omega)), char]
    rfl

/-! ## The bytes of one character -/

theorem continuation_toNat {b : UInt8} (h : isContinuation b = true) :
    0x80 ≤ b.toNat ∧ b.toNat < 0xC0 := by
  simpa [isContinuation, UInt8.le_iff_toNat_le, UInt8.lt_iff_toNat_lt] using h

/-- The bytes that may follow the first byte of a character are in the range of its number. -/
theorem second_toNat {a b : UInt8} (h : isSecond a b = true) :
    (0x80 ≤ b.toNat ∧ b.toNat < 0xC0) ∧ (a.toNat = 0xE0 → 0xA0 ≤ b.toNat) ∧
      (a.toNat = 0xED → b.toNat < 0xA0) ∧ (a.toNat = 0xF0 → 0x90 ≤ b.toNat) ∧
        (a.toNat = 0xF4 → b.toNat < 0x90) := by
  simp only [isSecond, Bool.and_eq_true, toNat_beq, UInt8.reduceToNat, beq_iff_eq] at h
  refine ⟨continuation_toNat h.1, ?_⟩
  grind [UInt8.le_iff_toNat_le, UInt8.lt_iff_toNat_lt]

theorem join_toNat {lead n : Nat} {continuation : List UInt8}
    (value : continuation.foldl (fun n b => 64 * n + (b.toNat - 0x80)) lead = n)
    (valid : n < 0xD800 ∨ 0xDFFF < n ∧ n < 0x110000) : (join lead continuation).toNat = n := by
  have isValid : n.isValidChar := valid
  rw [join, value, Char.ofNat, dif_pos isValid]
  rfl

theorem ofNat_eq {n : Nat} {b : UInt8} (h : n = b.toNat) : UInt8.ofNat n = b := by
  rw [h, UInt8.ofNat_toNat]

theorem encodeChar_one {a : UInt8} (h : a < 0x80) : encodeChar (join a.toNat []) = [a] := by
  have ascii : a.toNat < 0x80 := UInt8.lt_iff_toNat_lt.mp h
  have char : (join a.toNat []).toNat = a.toNat := join_toNat rfl (.inl (by omega))
  simp only [encodeChar, char, if_pos ascii, UInt8.ofNat_toNat]

theorem encodeChar_two {a b : UInt8} (lower : ¬ a < 0xC2) (upper : a < 0xE0)
    (hb : isContinuation b = true) : encodeChar (join (a.toNat - 0xC0) [b]) = [a, b] := by
  have start : 0xC2 ≤ a.toNat := UInt8.le_iff_toNat_le.mp (UInt8.not_lt.mp lower)
  have two : a.toNat < 0xE0 := UInt8.lt_iff_toNat_lt.mp upper
  obtain ⟨low, high⟩ := continuation_toNat hb
  have char : (join (a.toNat - 0xC0) [b]).toNat = 64 * (a.toNat - 0xC0) + (b.toNat - 0x80) :=
    join_toNat rfl (.inl (by omega))
  simp only [encodeChar, char]
  rw [if_neg (by omega), if_pos (by omega), ofNat_eq (show _ = a.toNat by omega),
    ofNat_eq (show _ = b.toNat by omega)]

theorem encodeChar_three {a b c : UInt8} (lower : ¬ a < 0xE0) (upper : a < 0xF0)
    (hb : isSecond a b = true) (hc : isContinuation c = true) :
    encodeChar (join (a.toNat - 0xE0) [b, c]) = [a, b, c] := by
  have start : 0xE0 ≤ a.toNat := UInt8.le_iff_toNat_le.mp (UInt8.not_lt.mp lower)
  have three : a.toNat < 0xF0 := UInt8.lt_iff_toNat_lt.mp upper
  obtain ⟨⟨lowB, highB⟩, short, surrogate, -, -⟩ := second_toNat hb
  obtain ⟨lowC, highC⟩ := continuation_toNat hc
  have char : (join (a.toNat - 0xE0) [b, c]).toNat =
      64 * (64 * (a.toNat - 0xE0) + (b.toNat - 0x80)) + (c.toNat - 0x80) :=
    join_toNat rfl (by omega)
  simp only [encodeChar, char]
  rw [if_neg (by omega), if_neg (by omega), if_pos (by omega),
    ofNat_eq (show _ = a.toNat by omega), ofNat_eq (show _ = b.toNat by omega),
    ofNat_eq (show _ = c.toNat by omega)]

theorem encodeChar_four {a b c d : UInt8} (lower : ¬ a < 0xF0) (upper : a < 0xF5)
    (hb : isSecond a b = true) (hc : isContinuation c = true) (hd : isContinuation d = true) :
    encodeChar (join (a.toNat - 0xF0) [b, c, d]) = [a, b, c, d] := by
  have start : 0xF0 ≤ a.toNat := UInt8.le_iff_toNat_le.mp (UInt8.not_lt.mp lower)
  have four : a.toNat < 0xF5 := UInt8.lt_iff_toNat_lt.mp upper
  obtain ⟨⟨lowB, highB⟩, -, -, short, beyond⟩ := second_toNat hb
  obtain ⟨lowC, highC⟩ := continuation_toNat hc
  obtain ⟨lowD, highD⟩ := continuation_toNat hd
  have char : (join (a.toNat - 0xF0) [b, c, d]).toNat =
      64 * (64 * (64 * (a.toNat - 0xF0) + (b.toNat - 0x80)) + (c.toNat - 0x80)) +
        (d.toNat - 0x80) := join_toNat rfl (by omega)
  simp only [encodeChar, char]
  rw [if_neg (by omega), if_neg (by omega), if_neg (by omega),
    ofNat_eq (show _ = a.toNat by omega), ofNat_eq (show _ = b.toNat by omega),
    ofNat_eq (show _ = c.toNat by omega), ofNat_eq (show _ = d.toNat by omega)]

/-! ## Texts -/

theorem decodeFrom_encode (position : Nat) (text : List Char) :
    decodeFrom position (encode text) = .ok text := by
  induction text generalizing position with
  | nil => rw [encode, List.flatMap_nil, decodeFrom]
  | cons c text ih =>
    have tail := ih (position + (encodeChar c).length)
    rw [encode] at tail
    rw [encode, List.flatMap_cons, decodeFrom_encodeChar, tail]
    rfl

/-- The bytes of a text are read as the text. -/
theorem decode_encode (text : List Char) : decode (encode text) = .ok text :=
  decodeFrom_encode 0 text

theorem encode_decodeFrom {position : Nat} {bytes : Bytes} {text : List Char}
    (h : decodeFrom position bytes = .ok text) : bytes = encode text := by
  have next {position : Nat} {here rest : Bytes} {c : Char} {text : List Char}
      (ih : ∀ text, decodeFrom position rest = .ok text → rest = encode text)
      (char : encodeChar c = here)
      (h : (do let text ← decodeFrom position rest; return c :: text) = .ok text) :
      here ++ rest = encode text := by
    obtain ⟨others, decodes, same⟩ := bind_eq_ok h
    cases same
    rw [ih others decodes, encode, encode, List.flatMap_cons, char]
  fun_induction decodeFrom position bytes generalizing text
  case case1 =>
    cases h
    rfl
  case case2 ascii ih => exact next (fun _ => ih) (encodeChar_one ascii) h
  case case5 start two _ _ hb ih => exact next (fun _ => ih) (encodeChar_two start two hb) h
  case case10 two three _ hb _ _ hc ih =>
    exact next (fun _ => ih) (encodeChar_three two three (by simpa using hb) hc) h
  case case17 three four _ hb _ hc _ _ hd ih =>
    exact next (fun _ => ih)
      (encodeChar_four three four (by simpa using hb) (by simpa using hc) hd) h
  all_goals cases h

/-- Bytes are read as a text iff they are the bytes of the text. -/
theorem decode_eq_ok {bytes : Bytes} {text : List Char} :
    decode bytes = .ok text ↔ bytes = encode text :=
  ⟨encode_decodeFrom, fun same => same ▸ decode_encode text⟩

/-- A text has no more characters than bytes. -/
theorem length_decodeFrom_le {position : Nat} {bytes : Bytes} {text : List Char}
    (h : decodeFrom position bytes = .ok text) : text.length ≤ bytes.length := by
  have next {position : Nat} {rest : Bytes} {c : Char} {text : List Char}
      (ih : ∀ text, decodeFrom position rest = .ok text → text.length ≤ rest.length)
      (h : (do let text ← decodeFrom position rest; return c :: text) = .ok text) :
      text.length ≤ rest.length + 1 := by
    cases decodes : decodeFrom position rest with
    | error fault => simp [decodes, bind, Except.bind] at h
    | ok others =>
      simp only [decodes, bind, Except.bind, pure, Except.pure, Except.ok.injEq] at h
      subst h
      exact Nat.succ_le_succ (ih others decodes)
  -- on the calls; all but those for one to four bytes end in a fault
  fun_induction decodeFrom position bytes generalizing text
  case case1 =>
    cases h
    exact Nat.le_refl _
  case case2 ih => exact next (fun _ => ih) h
  case case5 ih => exact Nat.le_trans (next (fun _ => ih) h) (by simp)
  case case10 ih => exact Nat.le_trans (next (fun _ => ih) h) (by simp)
  case case17 ih => exact Nat.le_trans (next (fun _ => ih) h) (by simp)
  all_goals cases h

end Utf8

/-! ## Line ends -/

/-- A text without carriage returns is its own spelling. -/
theorem universalNewlines_of_not_mem {text : List Char} (h : '\r' ∉ text) :
    universalNewlines text = text := by
  induction text with
  | nil => rfl
  | cons c text ih =>
    have plain : c ≠ '\r' := fun e => h (e ▸ List.mem_cons_self)
    have tail := ih (fun mem => h (List.mem_cons_of_mem c mem))
    rw [universalNewlines, tail]
    · exact fun _ e => absurd e plain
    · exact fun e => absurd e plain

theorem length_universalNewlines_le (text : List Char) :
    (universalNewlines text).length ≤ text.length := by
  fun_induction universalNewlines text with
  | case1 => exact Nat.le_refl _
  | case2 rest ih => exact Nat.succ_le_succ (Nat.le_trans ih (Nat.le_succ _))
  | case3 rest _ ih => exact Nat.succ_le_succ ih
  | case4 c rest _ _ ih => exact Nat.succ_le_succ ih

/-- The line and the column of an index exceed the length of a text by one at most. -/
theorem lineAndColumn_le (text : List Char) (index : Nat) :
    (lineAndColumn text index).1 ≤ text.length + 1 ∧
      (lineAndColumn text index).2 ≤ text.length + 1 := by
  have before : (text.take index).length ≤ text.length := List.length_take_le' index text
  have line : (text.take index).count '\n' ≤ (text.take index).length := List.count_le_length
  have column : ((text.take index).reverse.takeWhile (· != '\n')).length ≤
      (text.take index).length := by
    simpa using (List.takeWhile_sublist (p := (· != '\n'))
      (l := (text.take index).reverse)).length_le
  exact ⟨Nat.succ_le_succ (Nat.le_trans line before), Nat.succ_le_succ (Nat.le_trans column before)⟩

end DesignSystem
