import Mathlib.Tactic.Common

/-! # Base64

The alphabet for URLs, with padding: three bytes are four digits. Decoding undoes encoding, so that
different bytes have different texts. -/

namespace MarketingSuite.Lib.Base64

/-- The letters, the digits, `-` and `_`. -/
def alphabet : List Char :=
  (List.range' 65 26 ++ List.range' 97 26 ++ List.range' 48 10 ++ [45, 95]).map Char.ofNat

/-- The digit of a value below 64. -/
def digit (n : ℕ) : Char := alphabet.getD n '='

/-- The value of a digit. -/
def value (c : Char) : Option ℕ := alphabet.idxOf? c

def encode : List UInt8 → List Char
  | a :: b :: c :: l =>
    digit (a.toNat / 4) :: digit (a.toNat % 4 * 16 + b.toNat / 16) ::
      digit (b.toNat % 16 * 4 + c.toNat / 64) :: digit (c.toNat % 64) :: encode l
  | [a, b] =>
    [digit (a.toNat / 4), digit (a.toNat % 4 * 16 + b.toNat / 16), digit (b.toNat % 16 * 4), '=']
  | [a] => [digit (a.toNat / 4), digit (a.toNat % 4 * 16), '=', '=']
  | [] => []

def decode : List Char → Option (List UInt8)
  | [] => some []
  | c₁ :: c₂ :: c₃ :: c₄ :: l => do
    let v₁ ← value c₁
    let v₂ ← value c₂
    let a := UInt8.ofNat (v₁ * 4 + v₂ / 16)
    if c₃ = '=' then
      if c₄ = '=' ∧ l = [] then some [a] else none
    else do
      let v₃ ← value c₃
      let b := UInt8.ofNat (v₂ % 16 * 16 + v₃ / 4)
      if c₄ = '=' then
        if l = [] then some [a, b] else none
      else do
        let v₄ ← value c₄
        let rest ← decode l
        return a :: b :: UInt8.ofNat (v₃ % 4 * 64 + v₄) :: rest
  | _ => none

theorem value_digit {n : ℕ} (h : n < 64) : value (digit n) = some n := by
  have hall : ∀ n < 64, value (digit n) = some n := by decide
  exact hall n h

theorem digit_ne_pad {n : ℕ} (h : n < 64) : digit n ≠ '=' := by
  have hall : ∀ n < 64, digit n ≠ '=' := by decide
  exact hall n h

theorem ofNat_eq {a : UInt8} {n : ℕ} (h : n = a.toNat) : UInt8.ofNat n = a := by
  rw [h]
  exact UInt8.ofNat_toNat

theorem decode_encode (l : List UInt8) : decode (encode l) = some l := by
  induction l using encode.induct with
  | case1 a b c l ih =>
    have ha := a.toNat_lt
    have hb := b.toNat_lt
    have hc := c.toNat_lt
    have h₁ : a.toNat / 4 < 64 := by omega
    have h₂ : a.toNat % 4 * 16 + b.toNat / 16 < 64 := by omega
    have h₃ : b.toNat % 16 * 4 + c.toNat / 64 < 64 := by omega
    have h₄ : c.toNat % 64 < 64 := by omega
    simp only [encode, decode, value_digit h₁, value_digit h₂, value_digit h₃, value_digit h₄, ih,
      if_neg (digit_ne_pad h₃), if_neg (digit_ne_pad h₄), Option.bind_eq_bind, Option.bind_some]
    rw [ofNat_eq (a := a) (by omega), ofNat_eq (a := b) (by omega), ofNat_eq (a := c) (by omega)]
    rfl
  | case2 a b =>
    have ha := a.toNat_lt
    have hb := b.toNat_lt
    have h₁ : a.toNat / 4 < 64 := by omega
    have h₂ : a.toNat % 4 * 16 + b.toNat / 16 < 64 := by omega
    have h₃ : b.toNat % 16 * 4 < 64 := by omega
    simp only [encode, decode, value_digit h₁, value_digit h₂, value_digit h₃,
      if_neg (digit_ne_pad h₃), Option.bind_eq_bind, Option.bind_some, if_true]
    rw [ofNat_eq (a := a) (by omega), ofNat_eq (a := b) (by omega)]
  | case3 a =>
    have ha := a.toNat_lt
    have h₁ : a.toNat / 4 < 64 := by omega
    have h₂ : a.toNat % 4 * 16 < 64 := by omega
    simp only [encode, decode, value_digit h₁, value_digit h₂, Option.bind_eq_bind,
      Option.bind_some, and_self, if_true]
    rw [ofNat_eq (a := a) (by omega)]
  | case4 => rfl

end MarketingSuite.Lib.Base64
