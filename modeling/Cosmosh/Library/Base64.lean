import Cosmosh.Library.CodeUnits
import Cosmosh.Library.Utf8

/-! # Base64

Three bytes are four units of an alphabet of 64, and the last group is padded.
-/

namespace Library.Base64

open CodeUnits
open Utf8 (Byte)

def unit (d : Nat) : Nat :=
  if d < 26 then 0x41 + d
  else if d < 52 then 0x61 + (d - 26)
  else if d < 62 then 0x30 + (d - 52)
  else if d = 62 then 0x2b
  else 0x2f

def value? (u : Nat) : Option Nat :=
  if 0x41 ≤ u ∧ u ≤ 0x5a then some (u - 0x41)
  else if 0x61 ≤ u ∧ u ≤ 0x7a then some (u - 0x61 + 26)
  else if 0x30 ≤ u ∧ u ≤ 0x39 then some (u - 0x30 + 52)
  else if u = 0x2b ∨ u = 0x2d then some 62
  else if u = 0x2f ∨ u = 0x5f then some 63
  else none

def padding : Nat := 0x3d

def encode : List Byte → CodeUnits
  | [] => []
  | [a] => [unit (a.toNat / 4), unit (a.toNat % 4 * 16), padding, padding]
  | [a, b] => [unit (a.toNat / 4), unit (a.toNat % 4 * 16 + b.toNat / 16), unit (b.toNat % 16 * 4), padding]
  | a :: b :: c :: rest =>
    unit (a.toNat / 4) :: unit (a.toNat % 4 * 16 + b.toNat / 16) :: unit (b.toNat % 16 * 4 + c.toNat / 64) :: unit (c.toNat % 64) ::
      encode rest

def bytesOf : List Nat → List Byte
  | p :: q :: r :: s :: rest => (p * 4 + q / 16).toUInt8 :: (q % 16 * 16 + r / 4).toUInt8 :: (r % 4 * 64 + s).toUInt8 :: bytesOf rest
  | [p, q, r] => [(p * 4 + q / 16).toUInt8, (q % 16 * 16 + r / 4).toUInt8]
  | [p, q] => [(p * 4 + q / 16).toUInt8]
  | _ => []

def decode (text : CodeUnits) : List Byte := bytesOf ((text.takeWhile (· ≠ padding)).filterMap value?)

theorem value?_unit : ∀ d < 64, value? (unit d) = some d := by decide

theorem unit_ne_padding : ∀ d < 64, unit d ≠ padding := by decide

theorem decode_units {d : Nat} (hd : d < 64) (text : CodeUnits) :
    ((unit d :: text).takeWhile (· ≠ padding)).filterMap value? = d :: (text.takeWhile (· ≠ padding)).filterMap value? := by
  have hUnit : decide (unit d ≠ padding) = true := decide_eq_true (unit_ne_padding d hd)
  rw [List.takeWhile_cons, hUnit, if_pos rfl, List.filterMap_cons, value?_unit d hd]

theorem decode_padding (text : CodeUnits) : ((padding :: text).takeWhile (· ≠ padding)).filterMap value? = [] := by
  rw [List.takeWhile_cons_of_neg (by simp), List.filterMap_nil]

theorem toUInt8_eq {n : Nat} {b : Byte} (h : n = b.toNat) : n.toUInt8 = b := by
  rw [h]
  exact UInt8.ofNat_toNat

theorem decode_encode (bytes : List Byte) : decode (encode bytes) = bytes := by
  induction bytes using encode.induct with
  | case1 => rfl
  | case2 a =>
    have ha := a.toNat_lt
    rw [encode, decode, decode_units (by omega), decode_units (by omega), decode_padding, bytesOf, toUInt8_eq (b := a) (by omega)]
  | case3 a b =>
    have ha := a.toNat_lt
    have hb := b.toNat_lt
    rw [encode, decode, decode_units (by omega), decode_units (by omega), decode_units (by omega), decode_padding, bytesOf,
      toUInt8_eq (b := a) (by omega), toUInt8_eq (b := b) (by omega)]
  | case4 a b c rest ih =>
    have ha := a.toNat_lt
    have hb := b.toNat_lt
    have hc := c.toNat_lt
    rw [decode] at ih
    rw [encode, decode, decode_units (by omega), decode_units (by omega), decode_units (by omega), decode_units (by omega), bytesOf, ih,
      toUInt8_eq (b := a) (by omega), toUInt8_eq (b := b) (by omega), toUInt8_eq (b := c) (by omega)]

theorem length_encode (bytes : List Byte) : (encode bytes).length = 4 * ((bytes.length + 2) / 3) := by
  induction bytes using encode.induct with
  | case1 => rfl
  | case2 a => simp [encode]
  | case3 a b => simp [encode]
  | case4 a b c rest ih =>
    rw [encode, List.length_cons, List.length_cons, List.length_cons, List.length_cons, ih, List.length_cons, List.length_cons, List.length_cons]
    omega

def isBase64Unit (u : Nat) : Bool := isDigit u || (0x41 ≤ u && u ≤ 0x5a) || (0x61 ≤ u && u ≤ 0x7a) || u ∈ [0x2b, 0x2f, padding]

theorem isBase64Unit_unit : ∀ d < 64, isBase64Unit (unit d) = true := by decide

theorem isBase64Unit_of_mem_encode {bytes : List Byte} {u : Nat} (h : u ∈ encode bytes) : isBase64Unit u = true := by
  induction bytes using encode.induct with
  | case1 => cases h
  | case2 a =>
    have ha := a.toNat_lt
    rw [encode] at h
    simp only [List.mem_cons, List.not_mem_nil, or_false] at h
    obtain rfl | rfl | rfl | rfl := h
    · exact isBase64Unit_unit _ (by omega)
    · exact isBase64Unit_unit _ (by omega)
    · rfl
    · rfl
  | case3 a b =>
    have ha := a.toNat_lt
    have hb := b.toNat_lt
    rw [encode] at h
    simp only [List.mem_cons, List.not_mem_nil, or_false] at h
    obtain rfl | rfl | rfl | rfl := h
    · exact isBase64Unit_unit _ (by omega)
    · exact isBase64Unit_unit _ (by omega)
    · exact isBase64Unit_unit _ (by omega)
    · rfl
  | case4 a b c rest ih =>
    have ha := a.toNat_lt
    have hb := b.toNat_lt
    have hc := c.toNat_lt
    rw [encode] at h
    simp only [List.mem_cons] at h
    obtain rfl | rfl | rfl | rfl | hRest := h
    · exact isBase64Unit_unit _ (by omega)
    · exact isBase64Unit_unit _ (by omega)
    · exact isBase64Unit_unit _ (by omega)
    · exact isBase64Unit_unit _ (by omega)
    · exact ih hRest

end Library.Base64
