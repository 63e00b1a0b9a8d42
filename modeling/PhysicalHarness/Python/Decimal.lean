import Mathlib.Data.Nat.Prime.Basic
import PhysicalHarness.Python.JsonText

namespace PhysicalHarness
namespace Python
namespace JsonText

open Rounding

/-!
# Floats as exact decimals

Every float is an integer divided by a power of ten, and that decimal reads back
as the float.  It is longer than the shortest text that does, which is the one
the interpreter prints.
-/

theorem OpensNumber.append {text : List Char} (opens : OpensNumber text) (more : List Char) :
    OpensNumber (text ++ more) := by
  cases opens with
  | digit rest digit => exact .digit (rest ++ more) digit
  | sign rest digit => exact .sign (rest ++ more) digit

theorem readInt_eq_none {text : List Char} {char : Char} (mem : char ∈ text)
    (notSign : char ≠ '-') (notDigit : char.isDigit = false) : readInt text = none := by
  have noNat : ∀ digits : List Char, char ∈ digits → readNat digits = none := by
    intro digits mem
    rw [readNat, if_neg]
    intro same
    rw [← same] at mem
    rw [Nat.isDigit_of_mem_toDigits (by decide) (by decide) mem] at notDigit
    cases notDigit
  unfold readInt
  split
  · rename_i digits
    rcases List.mem_cons.mp mem with sign | later
    · exact absurd sign notSign
    · rw [noNat digits later, Option.map_none]
  · rw [noNat _ mem, Option.map_none]

def notE (char : Char) : Bool := char != 'e'

def scaled (numeral : List Char) (places : Nat) : List Char :=
  numeral ++ 'e' :: '-' :: Nat.toDigits 10 places

def readScaled (text : List Char) : Option Double :=
  match text.dropWhile notE with
  | 'e' :: '-' :: digits => do
      let whole ← readInt (text.takeWhile notE)
      let places ← readNat digits
      return if whole = 0 ∧ text.head? = some '-' then Double.negZero
        else Double.nearest (whole / 10 ^ places)
  | _ => none

theorem readScaled_scaled {numeral : List Char} {whole : Int}
    (digits : ∀ char ∈ numeral, notE char = true) (value : readInt numeral = some whole)
    (places : Nat) :
    readScaled (scaled numeral places) =
      some (if whole = 0 ∧ (scaled numeral places).head? = some '-' then Double.negZero
        else Double.nearest (whole / 10 ^ places)) := by
  have before : (scaled numeral places).takeWhile notE = numeral := by
    rw [scaled, List.takeWhile_append_of_pos digits, List.takeWhile_cons_of_neg (by decide),
      List.append_nil]
  have after : (scaled numeral places).dropWhile notE = 'e' :: '-' :: Nat.toDigits 10 places := by
    rw [scaled, List.dropWhile_append_of_pos digits, List.dropWhile_cons_of_neg (by decide)]
  rw [readScaled, before, after]
  simp only [value, readNat_toDigits]
  rfl

theorem notE_of_mem_intText {value : Int} {char : Char} (mem : char ∈ intText value) :
    notE char = true := by
  have digit : ∀ places : Nat, char ∈ Nat.toDigits 10 places → notE char = true := by
    intro places mem
    have isDigit := Nat.isDigit_of_mem_toDigits (by decide) (by decide) mem
    rw [notE, bne_iff_ne]
    rintro rfl
    cases isDigit
  unfold intText at mem
  split at mem
  · rcases List.mem_cons.mp mem with rfl | later
    · rfl
    · exact digit _ later
  · exact digit _ mem

def binaryPlaces (value : ℚ) : Nat := Nat.log2 value.den

theorem den_of_short {value : ℚ} (short : Short 52 (-1074) value) :
    value.den = 2 ^ binaryPlaces value := by
  have multiple : ∃ whole : ℤ, (whole : ℚ) * 2 ^ lastPlace 52 (-1074) value = value :=
    ⟨_, short⟩
  rcases multiple with ⟨whole, parts⟩
  have low : (-1074 : ℤ) ≤ lastPlace 52 (-1074) value := le_max_right _ _
  rcases exists_multiple low whole with ⟨other, same⟩
  have fraction : value = Rat.divInt other (2 ^ 1074 : ℕ) := by
    rw [← parts, ← same, Rat.divInt_eq_div, zpow_neg]
    rw [Int.cast_natCast, Nat.cast_pow, Nat.cast_ofNat, div_eq_mul_inv, zpow_ofNat]
  have divides : value.den ∣ 2 ^ 1074 := by
    have divides := Rat.den_dvd other (2 ^ 1074 : ℕ)
    rw [← fraction] at divides
    exact Int.natCast_dvd_natCast.mp divides
  rcases (Nat.dvd_prime_pow Nat.prime_two).mp divides with ⟨places, _, power⟩
  rw [binaryPlaces, power, Nat.log2_two_pow]

theorem fraction_of_short {value : ℚ} (short : Short 52 (-1074) value) :
    ((value.num * 5 ^ binaryPlaces value : ℤ) : ℚ) / 10 ^ binaryPlaces value = value := by
  have ten : (10 : ℚ) ^ binaryPlaces value = 2 ^ binaryPlaces value * 5 ^ binaryPlaces value := by
    rw [← mul_pow]
    norm_num
  have below : (2 : ℚ) ^ binaryPlaces value = value.den := by
    exact_mod_cast (den_of_short short).symm
  have five : (5 : ℚ) ^ binaryPlaces value ≠ 0 := pow_ne_zero _ (by norm_num)
  rw [ten, below]
  push_cast
  rw [mul_div_mul_right _ _ five, Rat.num_div_den]

def exactText (number : Double) : List Char :=
  match number.value with
  | .fin value => scaled (intText (value.num * 5 ^ binaryPlaces value)) (binaryPlaces value)
  | _ => scaled ['-', '0'] 0

theorem exactText_eq (number : Double) (finite : number.value.isFinite = true) :
    ∃ numeral places, exactText number = scaled numeral places ∧
      (∀ char ∈ numeral, notE char = true ∧ isNumeral char = true) ∧ OpensNumber numeral := by
  have minus : (∀ char ∈ ['-', '0'], notE char = true ∧ isNumeral char = true) ∧
      OpensNumber ['-', '0'] := by
    refine ⟨fun char mem => ?_, .sign [] rfl⟩
    rcases List.mem_pair.mp mem with rfl | rfl <;> exact ⟨rfl, rfl⟩
  rcases number with ⟨value | _ | _ | _ | _, double⟩
  · exact ⟨_, _, rfl, fun char mem =>
      ⟨notE_of_mem_intText mem, isNumeral_of_mem_intText mem⟩, opensNumber_intText _⟩
  · exact ⟨_, _, rfl, minus⟩
  all_goals cases finite

theorem readScaled_exactText (number : Double) (finite : number.value.isFinite = true) :
    readScaled (exactText number) = some number := by
  rcases number with ⟨value | _ | _ | _ | _, double⟩
  · rw [exactText, readScaled_scaled (fun _ mem => notE_of_mem_intText mem)
      (readInt_intText _), fraction_of_short double]
    have positive : ¬ (value.num * 5 ^ binaryPlaces value = 0 ∧
        (scaled (intText (value.num * 5 ^ binaryPlaces value)) (binaryPlaces value)).head? =
          some '-') := by
      rintro ⟨zero, sign⟩
      rw [zero] at sign
      cases sign
    rw [if_neg positive]
    congr 1
    exact Double.ext (congrArg PyFloat.fin double)
  · have sign : readInt ['-', '0'] = some 0 := by
      decide
    have plain : ∀ char ∈ ['-', '0'], notE char = true := List.all_eq_true.mp rfl
    rw [exactText, readScaled_scaled plain sign, if_pos ⟨rfl, rfl⟩]
    rfl
  all_goals cases finite

@[reducible] def exactDecimals : FloatText where
  text := exactText
  read := readScaled
  read_text := readScaled_exactText
  numeral := fun number finite char member => by
    rcases exactText_eq number finite with ⟨numeral, places, text, chars, _⟩
    rw [text, scaled] at member
    rcases List.mem_append.mp member with before | after
    · exact (chars char before).2
    · rcases List.mem_cons.mp after with rfl | after
      · rfl
      · rcases List.mem_cons.mp after with rfl | after
        · rfl
        · exact isNumeral_of_mem_toDigits after
  notInt := fun number finite => by
    rcases exactText_eq number finite with ⟨numeral, places, text, _, _⟩
    rw [text, scaled]
    exact readInt_eq_none (List.mem_append_right _ (.head _)) (by decide) rfl
  opens := fun number finite => by
    rcases exactText_eq number finite with ⟨numeral, places, text, _, opens⟩
    rw [text, scaled]
    exact opens.append _

end JsonText
end Python
end PhysicalHarness
