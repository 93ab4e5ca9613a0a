/-
Module: StyleAudit.Proofs.Json.Numerals
Purpose: Integers and finite double-precision numbers are written as numbers of JSON.
Trusted boundary: none
Main exports: Json.isWhole_toDigits, Json.toList_toString, Json.isNumber_toString,
  digits_shortest, Json.isNumber_render
-/
import StyleAudit.Number.Notation
import StyleAudit.Proofs.Json.Grammar

namespace StyleAudit.Json

open Number

/-!
### Integers
-/

theorem isDigit_of_mem_toDigits {n : Nat} : ∀ c ∈ Nat.toDigits 10 n, c.isDigit = true :=
  fun _ member => Nat.isDigit_of_mem_toDigits (by decide) (by decide) member

theorem areDigits_toDigits (n : Nat) : AreDigits (Nat.toDigits 10 n) :=
  ⟨Nat.toDigits_ne_nil, isDigit_of_mem_toDigits⟩

/-- The first digit of a number that is not zero is not zero. -/
theorem toDigits_of_pos (n : Nat) (positive : 0 < n) :
    ∃ first rest, Nat.toDigits 10 n = first :: rest ∧ first ≠ '0' := by
  induction n using Nat.strongRecOn with
  | ind n ih =>
      rw [Nat.toDigits_eq_if (by decide)]
      split
      · refine ⟨Nat.digitChar n, [], rfl, ?_⟩
        rw [ne_eq, Nat.digitChar_eq_zero]
        omega
      · obtain ⟨first, rest, digits, notZero⟩ := ih (n / 10) (by omega) (by omega)
        rw [digits]
        exact ⟨first, _, rfl, notZero⟩

theorem isWhole_toDigits (n : Nat) : IsWhole (Nat.toDigits 10 n) := by
  by_cases positive : 0 < n
  · obtain ⟨first, rest, digits, notZero⟩ := toDigits_of_pos n positive
    have areDigits := @isDigit_of_mem_toDigits n
    rw [digits] at areDigits ⊢
    exact .digits areDigits notZero
  · have zero : n = 0 := by omega
    rw [zero, Nat.toDigits_zero]
    exact .zero

theorem IsMagnitude.ofWhole {whole : List Char} (isWhole : IsWhole whole) : IsMagnitude whole := by
  have magnitude := IsMagnitude.parts isWhole .absent .absent
  rwa [List.append_nil, List.append_nil] at magnitude

theorem IsMagnitude.ofFraction {whole digits : List Char} (isWhole : IsWhole whole)
    (areDigits : AreDigits digits) : IsMagnitude (whole ++ '.' :: digits) := by
  have magnitude := IsMagnitude.parts isWhole (.point areDigits) .absent
  rwa [List.append_nil] at magnitude

/-- Zero with a digit behind the point. -/
theorem isMagnitude_zero : IsMagnitude ['0', '.', '0'] := by
  have digits : AreDigits ['0'] := ⟨by simp, by simp⟩
  exact .ofFraction .zero digits

theorem toList_toString (n : Int) :
    (toString n).toList
      = if n < 0 then '-' :: Nat.toDigits 10 n.natAbs else Nat.toDigits 10 n.natAbs := by
  have digits : ∀ m : Nat, m.repr.toList = Nat.toDigits 10 m := by
    intro m
    rw [Nat.repr, String.toList_ofList]
  rw [Int.toString_eq_repr, Int.repr_eq_if]
  by_cases negative : n < 0
  · have size : (-n).toNat = n.natAbs := by omega
    rw [if_neg (Int.not_le.2 negative), if_pos negative, String.toList_append, digits, size]
    rfl
  · have size : n.toNat = n.natAbs := by omega
    rw [if_pos (Int.not_lt.1 negative), if_neg negative, digits, size]

/-- An integer is written as a number. -/
theorem isNumber_toString (n : Int) : IsNumber (toString n).toList := by
  have magnitude : IsMagnitude (Nat.toDigits 10 n.natAbs) := .ofWhole (isWhole_toDigits _)
  rw [toList_toString]
  split
  · exact .negative magnitude
  · exact .unsigned magnitude

/-!
### Digits and a power of ten
-/

section Layout

variable {first : Char} {rest : List Char}

theorem isMagnitude_positional (areDigits : ∀ c ∈ first :: rest, c.isDigit = true)
    (notZero : first ≠ '0') (power : Int) : IsMagnitude (positional (first :: rest) power) := by
  have zeros : ∀ count, ∀ c ∈ List.replicate count '0', c.isDigit = true := by
    intro count c member
    rw [List.eq_of_mem_replicate member]
    rfl
  rw [positional]
  split
  · refine .ofFraction .zero ⟨by simp, ?_⟩
    exact List.forall_mem_append.2 ⟨zeros _, areDigits⟩
  · have before : (first :: rest).take (power.natAbs + 1)
          ++ List.replicate (power.natAbs + 1 - (first :: rest).length) '0'
        = first :: (rest.take power.natAbs
          ++ List.replicate (power.natAbs + 1 - (first :: rest).length) '0') := by
      rw [List.take_succ_cons, List.cons_append]
    have whole : ∀ c ∈ first :: (rest.take power.natAbs
        ++ List.replicate (power.natAbs + 1 - (first :: rest).length) '0'), c.isDigit = true := by
      rw [List.forall_mem_cons] at areDigits ⊢
      refine ⟨areDigits.1, List.forall_mem_append.2 ⟨?_, zeros _⟩⟩
      exact fun c member => areDigits.2 c (List.mem_of_mem_take member)
    simp only [before]
    refine .ofFraction (.digits whole notZero) ?_
    split
    · exact ⟨by simp, by simp⟩
    · rename_i some
      refine ⟨fun empty => some (List.isEmpty_iff.2 empty), ?_⟩
      exact fun c member => areDigits c (List.mem_of_mem_drop member)

theorem isMagnitude_scientific (areDigits : ∀ c ∈ first :: rest, c.isDigit = true)
    (notZero : first ≠ '0') (power : Int) : IsMagnitude (scientific (first :: rest) power) := by
  have exponent : ∀ sign ∈ ['-', '+'], ∀ padded, AreDigits padded →
      IsPower (['e', sign] ++ padded) := by
    intro sign member padded digits
    have signed : ∀ sign ∈ ['-', '+'], [sign] ∈ [[], ['+'], ['-']] := by simp
    exact @IsPower.power 'e' [sign] padded (by decide) (signed sign member) digits
  have isPadded : AreDigits (if (Nat.toDigits 10 power.natAbs).length < 2
      then '0' :: Nat.toDigits 10 power.natAbs else Nat.toDigits 10 power.natAbs) := by
    split
    · exact ⟨by simp, List.forall_mem_cons.2 ⟨rfl, isDigit_of_mem_toDigits⟩⟩
    · exact areDigits_toDigits _
  have isSign : (if power < 0 then '-' else '+') ∈ ['-', '+'] := by split <;> decide
  have isPower := exponent _ isSign _ isPadded
  have whole : IsWhole [first] :=
    .digits (fun c member => areDigits c (List.mem_cons.2 (.inl (List.mem_singleton.1 member))))
      notZero
  rw [List.forall_mem_cons] at areDigits
  cases rest with
  | nil => simpa [scientific] using IsMagnitude.parts whole .absent isPower
  | cons second others =>
      simpa [scientific] using IsMagnitude.parts whole (.point ⟨by simp, areDigits.2⟩) isPower

end Layout

end StyleAudit.Json

namespace StyleAudit

open Number

/-!
### Finite numbers
-/

/-- A finite number whose bits without the sign are those of zero has no significand. -/
theorem Binary64.significand_eq_zero {x : Binary64} {negative : Bool} {significand : Nat}
    {exponent : Int} (finite : x.shape = .finite negative significand exponent)
    (isZero : x.magnitude = Binary64.zero false) : significand = 0 := by
  have bound : x.bits.toNat < 18446744073709551616 := x.bits.toNat_lt
  have signPower : Nat.pow 2 63 = 9223372036854775808 := rfl
  have fractionPower : Nat.pow 2 52 = 4503599627370496 := rfl
  have exponentPower : Nat.pow 2 11 = 2048 := rfl
  have none : x.bits.toNat % 9223372036854775808 = 0 := by
    have bits := congrArg (fun y : Binary64 => y.bits.toNat) isZero
    simp only [Binary64.magnitude, Binary64.zero, Binary64.pack, UInt64.toNat_ofNat', signPower,
      fractionPower, Bool.false_eq_true, if_false] at bits
    omega
  simp only [Binary64.shape, fractionPower, exponentPower] at finite
  split at finite
  · split at finite <;> cases finite
  · split at finite
    · cases finite
      omega
    · omega

/-- The digits that identify a number other than zero are not zero. -/
theorem digits_ne_zero_of_identifies {x : Binary64} {d : Decimal}
    (notZero : x ≠ Binary64.zero false) (identified : identifies x d = true) : d.digits ≠ 0 := by
  intro zero
  rw [identifies, zero, Binary64.ofDecimal, if_pos rfl, beq_iff_eq] at identified
  exact notZero identified.symm

theorem digits_shortest {x : Binary64} (notZero : x ≠ Binary64.zero false) (significand : Nat)
    (exponent : Int) :
    (shortest x significand exponent).digits ≠ 0 ∨ shortest x significand exponent = ⟨0, 0⟩ := by
  simp only [shortest]
  generalize tried : List.findSome? _ (List.range 17) = found
  cases found with
  | none => exact .inr rfl
  | some d =>
      obtain ⟨count, _, hit⟩ := List.exists_of_findSome?_eq_some tried
      exact .inl (digits_ne_zero_of_identifies notZero (List.find?_some hit))

namespace Json

/-- Without the zeros at the end, digits that do not start with a zero still start with the same
digit. -/
theorem significantDigits_of_pos {d : Decimal} (positive : 0 < d.digits) :
    ∃ first rest, (significantDigits d).1 = first :: rest
      ∧ (∀ c ∈ first :: rest, c.isDigit = true) ∧ first ≠ '0' := by
  obtain ⟨first, rest, digits, notZero⟩ := toDigits_of_pos d.digits positive
  have areDigits := @isDigit_of_mem_toDigits d.digits
  rw [digits] at areDigits
  have kept : ((first :: rest).reverse.dropWhile (· == '0')).reverse
      = first :: (rest.reverse.dropWhile (· == '0')).reverse := by
    rw [List.reverse_cons, List.dropWhile_append]
    split
    · rename_i all
      rw [List.isEmpty_iff.1 all]
      simp [notZero]
    · simp
  refine ⟨first, (rest.reverse.dropWhile (· == '0')).reverse, ?_, ?_, notZero⟩
  · simp only [significantDigits, digits, kept]
  · rw [List.forall_mem_cons] at areDigits ⊢
    refine ⟨areDigits.1, ?_⟩
    intro c member
    rw [List.mem_reverse] at member
    exact areDigits.2 c (List.mem_reverse.1 ((List.dropWhile_sublist _).mem member))

/-- What stands for a finite number without its sign. -/
theorem isMagnitude_shortest {x : Binary64} (notZero : x ≠ Binary64.zero false)
    (significand : Nat) (exponent : Int) :
    IsMagnitude (
      let written := significantDigits (shortest x significand exponent)
      if -4 ≤ written.2 && written.2 < 16 then positional written.1 written.2
      else scientific written.1 written.2) := by
  rcases digits_shortest notZero significand exponent with some | none
  · obtain ⟨first, rest, written, areDigits, lead⟩ :=
      significantDigits_of_pos (Nat.pos_of_ne_zero some)
    simp only [written]
    split
    · exact isMagnitude_positional areDigits lead _
    · exact isMagnitude_scientific areDigits lead _
  · -- No count of digits sufficed; what stands for that is written as zero.
    rw [none]
    exact isMagnitude_zero

/-- A finite number is written as a number. -/
theorem isNumber_render {x : Binary64} {negative : Bool} {significand : Nat} {exponent : Int}
    (finite : x.shape = .finite negative significand exponent) :
    IsNumber (render x).toList := by
  have signed : ∀ {s}, IsMagnitude s → IsNumber (if negative then '-' :: s else s) := by
    intro s magnitude
    cases negative with
    | true => exact .negative magnitude
    | false => exact .unsigned magnitude
  simp only [render, finite, String.toList_ofList]
  apply signed
  split
  · exact isMagnitude_zero
  · rename_i some
    apply isMagnitude_shortest
    intro isZero
    exact some (Binary64.significand_eq_zero finite isZero)

end Json

end StyleAudit
