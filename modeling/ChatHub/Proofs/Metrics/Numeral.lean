import ChatHub.Metrics.Exposition
import ChatHub.Proofs.Text.Split
import Mathlib.Data.List.Basic
/-!
Numbers as they stand in the metrics.  Whatever the layout, and whatever digits are chosen for a
number, what is written is one.
-/

namespace ChatHub.Metrics

open Text (cutAt)
open Decimal (Layout zeros)

section Grammar

def isDigits (cs : List Char) : Bool := !cs.isEmpty && cs.all Char.isDigit

def withoutSign : List Char → List Char
  | '-' :: cs => cs
  | cs => cs

/-- Whether a text is made of digits, perhaps with a point among them. -/
def isFixed (cs : List Char) : Bool :=
  isDigits (cutAt '.' cs).1 && (cutAt '.' cs).2.all isDigits

/-- Whether a text is such a number, perhaps with an exponent. -/
def isUnsigned (cs : List Char) : Bool :=
  isFixed (cutAt 'e' cs).1 && (cutAt 'e' cs).2.all fun exponent => isDigits (withoutSign exponent)

/-- Whether a text is a number, perhaps with a sign.  Two words stand for what has no digits. -/
def isNumeral (cs : List Char) : Bool :=
  withoutSign cs == ['N', 'a', 'N'] || withoutSign cs == ['i', 'n', 'f'] ||
    isUnsigned (withoutSign cs)

end Grammar

section Digits

variable {cs ds : List Char}

theorem isDigits_iff : isDigits cs = true ↔ cs ≠ [] ∧ ∀ c ∈ cs, c.isDigit = true := by
  simp [isDigits]

theorem isDigits_toDigits (n : Nat) : isDigits (Nat.toDigits 10 n) = true := by
  refine isDigits_iff.mpr ⟨Nat.toDigits_ne_nil, fun c hc => ?_⟩
  exact Nat.isDigit_of_mem_toDigits (by decide) (by decide) hc

theorem isDigits_cons {c : Char} (hc : c.isDigit = true) (hcs : ∀ c ∈ cs, c.isDigit = true) :
    isDigits (c :: cs) = true :=
  isDigits_iff.mpr ⟨List.cons_ne_nil c cs, List.forall_mem_cons.mpr ⟨hc, hcs⟩⟩

theorem isDigits_append (hcs : isDigits cs = true) (hds : ∀ c ∈ ds, c.isDigit = true) :
    isDigits (cs ++ ds) = true := by
  obtain ⟨hne, hall⟩ := isDigits_iff.mp hcs
  exact isDigits_iff.mpr ⟨List.append_ne_nil_of_left_ne_nil hne _,
    List.forall_mem_append.mpr ⟨hall, hds⟩⟩

theorem isDigit_zeros (n : Nat) : ∀ c ∈ zeros n, c.isDigit = true := by
  intro c hc
  rw [List.eq_of_mem_replicate hc]
  rfl

end Digits

section Fixed

variable {cs whole fraction exponent : List Char}

theorem isFixed_of_isDigits (h : isDigits cs = true) : isFixed cs = true := by
  have hpoint : '.' ∉ cs := fun hin => Bool.false_ne_true ((isDigits_iff.mp h).2 '.' hin)
  rw [isFixed, Text.cutAt_of_not_mem hpoint, h]
  rfl

theorem isFixed_point (hwhole : isDigits whole = true) (hfraction : isDigits fraction = true) :
    isFixed (whole ++ '.' :: fraction) = true := by
  have hpoint : '.' ∉ whole := fun hin => Bool.false_ne_true ((isDigits_iff.mp hwhole).2 '.' hin)
  rw [isFixed, Text.cutAt_append hpoint, hwhole]
  exact hfraction

theorem isDigit_or_eq_point (h : isFixed cs = true) : ∀ c ∈ cs, c.isDigit = true ∨ c = '.' := by
  rw [isFixed, Bool.and_eq_true] at h
  obtain ⟨hwhole, hfraction⟩ := h
  rw [← Text.append_cutAt '.' cs]
  intro c hc
  rcases List.mem_append.mp hc with hin | hin
  · exact Or.inl ((isDigits_iff.mp hwhole).2 c hin)
  · cases hcut : (cutAt '.' cs).2 with
    | none =>
      rw [hcut] at hin
      cases hin
    | some fraction =>
      rw [hcut] at hin hfraction
      rcases List.mem_cons.mp hin with rfl | hin
      · exact Or.inr rfl
      · exact Or.inl ((isDigits_iff.mp hfraction).2 c hin)

theorem isUnsigned_of_isFixed (h : isFixed cs = true) : isUnsigned cs = true := by
  have hmark : 'e' ∉ cs := fun hin => absurd (isDigit_or_eq_point h 'e' hin) (by decide)
  rw [isUnsigned, Text.cutAt_of_not_mem hmark, h]
  rfl

theorem withoutSign_sign (negative : Bool) (hhead : cs.head? ≠ some '-') :
    withoutSign (Layout.sign negative ++ cs) = cs := by
  cases negative with
  | true => rfl
  | false =>
    rw [Layout.sign, if_neg Bool.false_ne_true, List.nil_append, withoutSign.eq_def]
    split
    next => exact absurd rfl hhead
    next => rfl

theorem isUnsigned_exponent (hcs : isFixed cs = true) (hexponent : isDigits exponent = true)
    (negative : Bool) : isUnsigned (cs ++ 'e' :: (Layout.sign negative ++ exponent)) = true := by
  have hmark : 'e' ∉ cs := fun hin => absurd (isDigit_or_eq_point hcs 'e' hin) (by decide)
  have hhead : exponent.head? ≠ some '-' := fun hsome =>
    Bool.false_ne_true ((isDigits_iff.mp hexponent).2 '-' (List.mem_of_head? hsome))
  rw [isUnsigned, Text.cutAt_append hmark, hcs]
  simp only [Option.all_some, withoutSign_sign negative hhead, hexponent, Bool.and_self]

/-- What a number is made of. -/
def isNumeralChar (c : Char) : Bool := c.isAlphanum || c == '.' || c == '-'

theorem isNumeralChar_of_isDigit {c : Char} (hc : c.isDigit = true) : isNumeralChar c = true := by
  rw [isNumeralChar, Char.isAlphanum, hc, Bool.or_true, Bool.true_or, Bool.true_or]

theorem isNumeralChar_of_withoutSign (h : ∀ c ∈ withoutSign cs, isNumeralChar c = true) :
    ∀ c ∈ cs, isNumeralChar c = true := by
  rw [withoutSign.eq_def] at h
  split at h
  next => exact List.forall_mem_cons.mpr ⟨rfl, h⟩
  next => exact h

theorem isNumeralChar_of_isUnsigned (h : isUnsigned cs = true) :
    ∀ c ∈ cs, isNumeralChar c = true := by
  rw [isUnsigned, Bool.and_eq_true] at h
  obtain ⟨hmantissa, hexponent⟩ := h
  rw [← Text.append_cutAt 'e' cs]
  intro c hc
  rcases List.mem_append.mp hc with hin | hin
  · rcases isDigit_or_eq_point hmantissa c hin with hdigit | rfl
    · exact isNumeralChar_of_isDigit hdigit
    · rfl
  · cases hcut : (cutAt 'e' cs).2 with
    | none =>
      rw [hcut] at hin
      cases hin
    | some exponent =>
      rw [hcut] at hin hexponent
      have hall : ∀ d ∈ withoutSign exponent, isNumeralChar d = true := fun d hd =>
        isNumeralChar_of_isDigit ((isDigits_iff.mp hexponent).2 d hd)
      rcases List.mem_cons.mp hin with rfl | hin
      · rfl
      · exact isNumeralChar_of_withoutSign hall c hin

theorem isNumeralChar_of_isNumeral (h : isNumeral cs = true) :
    ∀ c ∈ cs, isNumeralChar c = true := by
  apply isNumeralChar_of_withoutSign
  rw [isNumeral, Bool.or_eq_true, Bool.or_eq_true, beq_iff_eq, beq_iff_eq] at h
  rcases h with (hword | hword) | hnumber
  · rw [hword]
    exact List.all_eq_true.mp rfl
  · rw [hword]
    exact List.all_eq_true.mp rfl
  · exact isNumeralChar_of_isUnsigned hnumber

end Fixed

section Layout

variable {digits : List Char} (hdigits : isDigits digits = true)

include hdigits

theorem isFixed_positional (l : Layout) (place : Int) :
    isFixed (l.positional digits place) = true := by
  obtain ⟨hne, hall⟩ := isDigits_iff.mp hdigits
  have hzero : isDigits ['0'] = true := rfl
  rw [Layout.positional]
  split
  next =>
    have hfraction : isDigits (zeros (-place).toNat ++ digits) = true := by
      refine isDigits_iff.mpr ⟨List.append_ne_nil_of_right_ne_nil _ hne, ?_⟩
      exact List.forall_mem_append.mpr ⟨isDigit_zeros _, hall⟩
    exact isFixed_point hzero hfraction
  next hplace =>
    dsimp only
    split
    next =>
      have hwhole := isDigits_append hdigits (isDigit_zeros (place.toNat - digits.length))
      split
      next => exact isFixed_point hwhole hzero
      next =>
        rw [List.append_nil]
        exact isFixed_of_isDigits hwhole
    next hlength =>
      have hwhole : isDigits (digits.take place.toNat) = true := by
        refine isDigits_iff.mpr ⟨?_, fun c hc => hall c (List.mem_of_mem_take hc)⟩
        have hpos : 0 < place.toNat := by omega
        simp [hne, Nat.pos_iff_ne_zero.mp hpos]
      have hfraction : isDigits (digits.drop place.toNat) = true := by
        refine isDigits_iff.mpr ⟨?_, fun c hc => hall c (List.mem_of_mem_drop hc)⟩
        rw [Ne, List.drop_eq_nil_iff]
        exact hlength
      exact isFixed_point hwhole hfraction

theorem isUnsigned_scientific (place : Int) :
    isUnsigned (Layout.scientific digits place) = true := by
  obtain ⟨hne, hall⟩ := isDigits_iff.mp hdigits
  have hexponent := isDigits_toDigits (place - 1).natAbs
  have hsign : (if place - 1 < 0 then ['-'] else []) = Layout.sign (decide (place - 1 < 0)) := by
    simp only [Layout.sign, decide_eq_true_eq]
  simp only [Layout.scientific, hsign]
  apply isUnsigned_exponent _ hexponent
  split
  next => exact absurd rfl hne
  next d => exact isFixed_of_isDigits hdigits
  next d rest hrest =>
    have hfirst : isDigits [d] = true := isDigits_cons (hall d List.mem_cons_self) nofun
    have hmore : isDigits rest = true :=
      isDigits_iff.mpr ⟨hrest, fun c hc => hall c (List.mem_cons_of_mem d hc)⟩
    exact isFixed_point hfirst hmore

end Layout

section Numeral

theorem isNumeral_sign {cs : List Char} (hcs : isUnsigned cs = true) (negative : Bool) :
    isNumeral (Layout.sign negative ++ cs) = true := by
  have hhead : cs.head? ≠ some '-' := by
    rw [isUnsigned, Bool.and_eq_true, isFixed, Bool.and_eq_true] at hcs
    obtain ⟨hne, hall⟩ := isDigits_iff.mp hcs.1.1
    rw [← Text.append_cutAt 'e' cs, ← Text.append_cutAt '.' (cutAt 'e' cs).1, List.append_assoc,
      List.head?_append_of_ne_nil _ hne]
    exact fun hsome => Bool.false_ne_true (hall '-' (List.mem_of_head? hsome))
  rw [isNumeral, withoutSign_sign negative hhead, hcs, Bool.or_true]

/-- Whatever is written for a number is one. -/
theorem isNumeral_write (l : Layout) (decimal : Decimal.Binary → Decimal) (v : Decimal.Value) :
    isNumeral (l.write decimal v) = true := by
  cases v with
  | nan => rfl
  | infinite negative => cases negative <;> rfl
  | zero negative =>
    apply isNumeral_sign
    split <;> rfl
  | finite negative b =>
    apply isNumeral_sign
    have hdigits := isDigits_toDigits (decimal b).digits
    rw [Layout.magnitude]
    split
    next => exact isUnsigned_of_isFixed (isFixed_positional hdigits l _)
    next => exact isUnsigned_scientific hdigits _

theorem isNumeral_writeFloat (x : Float) : isNumeral (writeFloat x).toList = true := by
  rw [writeFloat, String.toList_ofList]
  exact isNumeral_write numberLayout _ _

theorem isNumeral_nat (n : Nat) : isNumeral (toString n).toList = true := by
  have hdigits := isDigits_toDigits n
  rw [Nat.toString_eq_repr, Nat.toList_repr]
  exact isNumeral_sign (isUnsigned_of_isFixed (isFixed_of_isDigits hdigits)) false

theorem isNumeral_int (n : Int) : isNumeral (toString n).toList = true := by
  cases n with
  | ofNat n => exact isNumeral_nat n
  | negSucc n =>
    have hdigits := isDigits_toDigits (n + 1)
    have hnumeral := isNumeral_sign (isUnsigned_of_isFixed (isFixed_of_isDigits hdigits)) true
    have htext : (toString (Int.negSucc n)).toList = '-' :: Nat.toDigits 10 (n + 1) := by
      change ("-" ++ Nat.repr (n + 1)).toList = _
      rw [String.toList_append, Nat.toList_repr]
      rfl
    rw [htext]
    exact hnumeral

end Numeral

end ChatHub.Metrics
