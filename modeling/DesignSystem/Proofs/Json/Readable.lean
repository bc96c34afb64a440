import DesignSystem.Proofs.Json.Finite
import DesignSystem.Proofs.Json.RoundTrip
import Mathlib.Data.Nat.Digits.Defs

/-! # What is read can be written

An integer that is read has no more digits than integers that are written.

* `Json.readNumber_writable`: numerals.
* `Json.writable_built`: documents as they are read.
* `Json.Readable`, `Json.Storable`: documents that are read as they are written, and those of them
  that are put on disk.
-/

namespace DesignSystem
set_option autoImplicit false

namespace Json

theorem digitsValue_lt {digits : List Char} (each : ∀ c ∈ digits, c.isDigit = true) :
    digitsValue digits < 10 ^ digits.length := by
  induction digits using List.reverseRecOn with
  | nil => simp [digitsValue]
  | append_singleton digits c ih =>
    rw [List.forall_mem_append] at each
    have digit : digitsValue [c] < 10 := by
      have isDigit := each.2 c (by simp)
      simp only [Char.isDigit, Bool.and_eq_true, decide_eq_true_eq, UInt32.le_iff_toNat_le]
        at isDigit
      have bound : c.toNat ≤ 57 := isDigit.2
      have zero : '0'.toNat = 48 := rfl
      simp only [digitsValue, Nat.ofDigitChars_cons, Nat.ofDigitChars_nil]
      omega
    have rest := ih each.1
    have split : digitsValue (digits ++ [c]) = digitsValue digits * 10 + digitsValue [c] := by
      simpa [digitsValue] using ofDigitChars_append_eq digits [c]
    rw [split, List.length_append, List.length_singleton, pow_succ]
    omega

theorem readNumber_writable {text rest : List Char} {n : Number}
    (h : readNumber text = .ok (.number n, rest)) : (number n).unwritable? false = none := by
  unfold readNumber at h
  split at h
  · cases h
  · next parts after spelled =>
    obtain ⟨found, reads, h⟩ := bind_eq_ok h
    cases h
    obtain ⟨used, ⟨isWhole, -⟩, -⟩ := numeralParts?_eq_some spelled
    obtain ⟨c, cs, whole, -⟩ := isWhole.exists_cons
    unfold NumeralParts.number at reads
    split at reads
    · split at reads
      · cases reads
      · next short =>
        cases reads
        have magnitude : parts.int.natAbs = digitsValue parts.whole := by
          unfold NumeralParts.int
          split <;> simp
        have length := Nat.toDigits_length 10 _ _ (by simp [whole]) (digitsValue_lt isWhole.isDigit)
        rw [unwritable?, unwritableNumber?, magnitude, if_neg]
        exact Nat.not_lt.mpr (length.trans (Nat.le_of_not_lt short))
    · cases reads
      rfl

theorem writable_built : Built fun document => document.unwritable? false = none where
  null := rfl
  bool _ := rfl
  string _ := rfl
  number := readNumber_writable
  special _ := rfl
  array each := unwritableItem?_eq_none.mpr each
  object _ each := unwritableField?_eq_none.mpr each

/-! ## Both ways -/

/-- Containers with distinct names are written if all their parts are. -/
theorem distinct_writable_cumulative (finiteOnly : Bool) :
    Cumulative fun document => document.Distinct ∧ document.unwritable? finiteOnly = none where
  text text := ⟨.string text, rfl⟩
  empty := ⟨distinct_hereditary.empty, rfl⟩
  item h item mem :=
    ⟨distinct_hereditary.item h.1 item mem, (writable_hereditary finiteOnly).item h.2 item mem⟩
  field h field mem :=
    ⟨distinct_hereditary.field h.1 field mem, (writable_hereditary finiteOnly).field h.2 field mem⟩
  array each := ⟨.array _ fun item mem => (each item mem).1,
    unwritableItem?_eq_none.mpr fun item mem => (each item mem).2⟩
  object names each := ⟨.object _ names fun field mem => (each field mem).1,
    unwritableField?_eq_none.mpr fun field mem => (each field mem).2⟩

/-- Documents with distinct names and without integers of too many digits. They are read as they are
written. -/
def Readable (document : Json) : Prop :=
  document.Distinct ∧ document.unwritable? false = none

theorem readable_cumulative : Cumulative Readable := distinct_writable_cumulative false

/-- Readable documents with finite numbers. Those that are Unicode are put on disk and read from
there. -/
def Storable (document : Json) : Prop :=
  document.Distinct ∧ document.unwritable? true = none

theorem storable_cumulative : Cumulative Storable := distinct_writable_cumulative true

theorem storable_iff {document : Json} :
    document.Storable ↔ document.Readable ∧ document.Finite := by
  rw [Storable, Readable, unwritable?_eq_none_iff, and_assoc]

theorem storable_bool (value : Bool) : (bool value).Storable := ⟨.bool value, rfl⟩

theorem Readable.read_text {document : Json} (readable : document.Readable) :
    read true (document.text .asciiLine).toList = .ok document.joined := by
  have blank : ∀ c ∈ [], isBlank c = true := by simp
  have reads := read_render true .asciiLine readable.1 (.inl rfl) readable.2 blank
  rwa [List.append_nil, ← String.toList_ofList (l := document.render .asciiLine 0)] at reads

end Json
end DesignSystem
