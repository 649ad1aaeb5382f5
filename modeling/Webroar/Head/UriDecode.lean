import Mathlib.Data.List.TakeWhile
import Webroar.Library.Decimal
import Webroar.Library.Percent

/-! # Decoding the path of a request

The escapes in the path of a file are resolved with two pointers: one reads, the other writes into a
copy of the text. The loop does not look at the length of the text; it goes on to a NUL or to a
question mark. All reads and writes are checked here against the memory that is there.
-/

open Percent (sign ofDigits digitValue Encodes Escaped)

namespace UriDecode

/-- The macro `HEX2DEC`, cut to a byte. -/
def hex2dec (c : UInt8) : UInt8 :=
  if 48 ≤ c ∧ c ≤ 57 then c - 48
  else if 97 ≤ c ∧ c ≤ 102 then c - 97 + 10
  else c - 65 + 10

/-- The copy and the write pointer. -/
structure Output where
  str : List UInt8
  t : Nat
deriving DecidableEq, Repr

/-- A byte is stored where the write pointer is; nothing when that is outside the copy. -/
def Output.put (out : Output) (c : UInt8) : Option Output :=
  if out.t < out.str.length then some { out with str := out.str.set out.t c } else none

/-- A byte is stored, and the write pointer goes on. -/
def Output.push (out : Output) (c : UInt8) : Option Output :=
  (out.put c).map fun out => { out with t := out.t + 1 }

/-- The loop of `uri_decode` with the NUL behind it; nothing when it reads behind the memory. In an
escape that is cut short the loop stops at the NUL. -/
def loop : List UInt8 → Output → Option Output
  | [], _ => none
  | c :: rest, out =>
      if c = 0 ∨ c = 63 then out.put 0
      else if c = sign then
        match rest with
        | [] => none
        | x :: rest =>
            if x = 0 then out.put 0
            else
              match rest with
              | [] => none
              | y :: rest =>
                  if y = 0 then out.put 0
                  else (out.push ((hex2dec x <<< 4) ||| hex2dec y)).bind (loop rest)
      else (out.push c).bind (loop rest)

/-- The result of `uri_decode`, with the place of the write pointer. -/
structure Decoded where
  str : List UInt8
  len : Nat
  t : Nat
deriving DecidableEq, Repr

/-- `uri_decode` of a text in some memory. -/
def uriDecode (s : List UInt8) (len : Nat) : Option Decoded :=
  if s.length < len then none
  else (loop s ⟨s.take len ++ [0], 0⟩).map fun out =>
    ⟨out.str, (out.str.takeWhile (· ≠ 0)).length, out.t⟩

/-- The decoded text. -/
def Decoded.text (decoded : Decoded) : List UInt8 := decoded.str.take decoded.len

/-! ### Escapes -/

/-- The macro gives the value of a digit. -/
theorem hex2dec_eq {c : UInt8} {value : Nat} (digit : digitValue c = some value) :
    hex2dec c = UInt8.ofNat value := by
  have small := Percent.digitValue_lt digit
  unfold digitValue at digit
  unfold hex2dec
  refine UInt8.toNat_inj.mp ?_
  rw [UInt8.toNat_ofNat']
  simp only [UInt8.le_iff_toNat_le] at digit ⊢
  split_ifs at digit with decimal upper lower
  · cases digit
    have least : 48 ≤ c.toNat := decimal.1
    have le : (48 : UInt8) ≤ c := UInt8.le_iff_toNat_le.mpr least
    rw [if_pos decimal, UInt8.toNat_sub_of_le _ _ le]
    have exact : (48 : UInt8).toNat = 48 := rfl
    omega
  · cases digit
    have least : 65 ≤ c.toNat := upper.1
    have other : ¬ ((97 : UInt8).toNat ≤ c.toNat ∧ c.toNat ≤ (102 : UInt8).toNat) := by
      have most : c.toNat ≤ 70 := upper.2
      have exact : (97 : UInt8).toNat = 97 := rfl
      omega
    have le : (65 : UInt8) ≤ c := UInt8.le_iff_toNat_le.mpr least
    rw [if_neg decimal, if_neg other, UInt8.toNat_add, UInt8.toNat_sub_of_le _ _ le]
    have exact : (65 : UInt8).toNat = 65 ∧ (10 : UInt8).toNat = 10 := ⟨rfl, rfl⟩
    omega
  · cases digit
    have least : 97 ≤ c.toNat := lower.1
    have le : (97 : UInt8) ≤ c := UInt8.le_iff_toNat_le.mpr least
    rw [if_neg decimal, if_pos lower, UInt8.toNat_add, UInt8.toNat_sub_of_le _ _ le]
    have exact : (97 : UInt8).toNat = 97 ∧ (10 : UInt8).toNat = 10 := ⟨rfl, rfl⟩
    omega

theorem halves : ∀ high < 16, ∀ low < 16,
    (UInt8.ofNat high <<< 4) ||| UInt8.ofNat low = ofDigits high low := by decide

/-- Two digits are folded to their byte. -/
theorem fold_digits {x y : UInt8} {high low : Nat} (first : digitValue x = some high)
    (second : digitValue y = some low) : (hex2dec x <<< 4) ||| hex2dec y = ofDigits high low := by
  rw [hex2dec_eq first, hex2dec_eq second]
  exact halves high (Percent.digitValue_lt first) low (Percent.digitValue_lt second)

theorem ne_zero_of_digit {c : UInt8} {value : Nat} (digit : digitValue c = some value) :
    c ≠ 0 := by
  rintro rfl
  cases digit

/-! ### The loop -/

/-- The copy after some bytes were stored, and a NUL behind them. -/
def Output.store (out : Output) (text : List UInt8) : Output :=
  ⟨out.str.take out.t ++ (text ++ 0 :: out.str.drop (out.t + text.length + 1)),
    out.t + text.length⟩

theorem put_zero {out : Output} (room : out.t < out.str.length) :
    out.put 0 = some (out.store []) := by
  rw [Output.put, if_pos room, Output.store, List.set_eq_take_append_cons_drop, if_pos room]
  rfl

theorem push_eq {out : Output} (c : UInt8) (room : out.t < out.str.length) :
    out.push c = some ⟨out.str.set out.t c, out.t + 1⟩ := by
  rw [Output.push, Output.put, if_pos room]
  rfl

theorem store_push (out : Output) (c : UInt8) (text : List UInt8)
    (room : out.t < out.str.length) :
    Output.store ⟨out.str.set out.t c, out.t + 1⟩ text = out.store (c :: text) := by
  have count : out.t + 1 + text.length = out.t + (text.length + 1) := by omega
  unfold Output.store
  rw [List.length_cons, count]
  congr 1
  have front : (out.str.set out.t c).take (out.t + 1) = out.str.take out.t ++ [c] := by
    rw [List.set_eq_take_append_cons_drop, if_pos room, List.take_append]
    have length : (out.str.take out.t).length = out.t := List.length_take_of_le (Nat.le_of_lt room)
    rw [length, List.take_of_length_le (by omega), Nat.add_sub_cancel_left, List.take_succ_cons,
      List.take_zero]
  have back : (out.str.set out.t c).drop (out.t + (text.length + 1) + 1) =
      out.str.drop (out.t + (text.length + 1) + 1) := List.drop_set_of_lt (by omega)
  rw [front, back, List.append_assoc]
  rfl

theorem loop_end {stop : UInt8} (ends : stop = 0 ∨ stop = 63) (behind : List UInt8)
    (out : Output) : loop (stop :: behind) out = out.put 0 := by
  rw [loop.eq_def]
  exact if_pos ends

theorem loop_plain {c : UInt8} (going : ¬ (c = 0 ∨ c = 63)) (other : c ≠ sign)
    (rest : List UInt8) (out : Output) :
    loop (c :: rest) out = (out.push c).bind (loop rest) := by
  rw [loop.eq_def]
  dsimp only
  rw [if_neg going, if_neg other]

theorem loop_escape {x y : UInt8} {high low : Nat} (first : digitValue x = some high)
    (second : digitValue y = some low) (rest : List UInt8) (out : Output) :
    loop (sign :: x :: y :: rest) out = (out.push (ofDigits high low)).bind (loop rest) := by
  rw [loop.eq_def]
  dsimp only
  rw [if_neg (by decide), if_pos rfl, if_neg (ne_zero_of_digit first),
    if_neg (ne_zero_of_digit second), fold_digits first second]

/-- The loop stores the text that was written down, and looks at nothing behind its end. -/
theorem loop_eq {coded text : List UInt8} (encodes : Encodes coded text) {stop : UInt8}
    (ends : stop = 0 ∨ stop = 63) (noZero : (0 : UInt8) ∉ coded) (noQuery : (63 : UInt8) ∉ coded)
    (behind : List UInt8) {out : Output} (room : out.t + text.length < out.str.length) :
    loop (coded ++ stop :: behind) out = some (out.store text) := by
  induction encodes generalizing out with
  | nil =>
      rw [List.nil_append, loop_end ends]
      exact put_zero room
  | @plain c coded text other encodes ih =>
      have going : ¬ (c = 0 ∨ c = 63) := by
        rintro (rfl | rfl)
        · exact noZero List.mem_cons_self
        · exact noQuery List.mem_cons_self
      rw [List.length_cons] at room
      rw [List.cons_append, loop_plain going other, push_eq c (by omega),
        Option.bind_some, ih (fun member => noZero (List.mem_cons_of_mem _ member))
          (fun member => noQuery (List.mem_cons_of_mem _ member))
          (by rw [List.length_set]; dsimp only; omega),
        store_push out c text (by omega)]
  | @escape x y high low coded text first second encodes ih =>
      have zero : (0 : UInt8) ∉ coded := fun member =>
        noZero (List.mem_cons_of_mem _ (List.mem_cons_of_mem _ (List.mem_cons_of_mem _ member)))
      have query : (63 : UInt8) ∉ coded := fun member =>
        noQuery (List.mem_cons_of_mem _ (List.mem_cons_of_mem _ (List.mem_cons_of_mem _ member)))
      rw [List.length_cons] at room
      rw [List.cons_append, List.cons_append, List.cons_append, loop_escape first second,
        push_eq _ (by omega), Option.bind_some,
        ih zero query (by rw [List.length_set]; dsimp only; omega),
        store_push out _ text (by omega)]

/-! ### The whole function -/

theorem takeWhile_zero (text rest : List UInt8) :
    (text ++ 0 :: rest).takeWhile (· ≠ 0) = text.takeWhile (· ≠ 0) := by
  rw [List.takeWhile_append]
  split_ifs with all
  · rw [List.takeWhile_cons_of_neg (by decide), List.append_nil]
    exact ((List.takeWhile_prefix _).eq_of_length all).symm
  · rfl

theorem takeWhile_eq_self {text : List UInt8} (plain : (0 : UInt8) ∉ text) :
    text.takeWhile (· ≠ 0) = text := by
  refine List.takeWhile_eq_self_iff.mpr fun c member => decide_eq_true ?_
  rintro rfl
  exact plain member

/-- What is decoded from a text with whole escapes, whatever lies behind its end. -/
theorem uriDecode_eq {coded text : List UInt8} (encodes : Encodes coded text) {stop : UInt8}
    (ends : stop = 0 ∨ stop = 63) (noZero : (0 : UInt8) ∉ coded) (noQuery : (63 : UInt8) ∉ coded)
    (behind : List UInt8) :
    uriDecode (coded ++ stop :: behind) coded.length =
      some ⟨text ++ 0 :: (coded ++ [0]).drop (text.length + 1),
        (text.takeWhile (· ≠ 0)).length, text.length⟩ := by
  have short := encodes.length_le
  have length : ¬ (coded ++ stop :: behind).length < coded.length := by
    rw [List.length_append]
    omega
  have room : (0 : Nat) + text.length < (coded ++ [0]).length := by
    rw [List.length_append, List.length_singleton]
    omega
  have decoded := @loop_eq coded text encodes stop ends noZero noQuery behind ⟨coded ++ [0], 0⟩ room
  rw [uriDecode, if_neg length, List.take_left, decoded, Option.map_some]
  simp only [Output.store, List.take_zero, List.nil_append, Nat.zero_add, takeWhile_zero]

/-- Every way to write a text down is read as the text; and a text with whole escapes is decoded into
the copy of it, up to its first NUL, without a look behind its end. -/
theorem uriDecode_right :
    (∀ text coded : List UInt8, (0 : UInt8) ∉ text → Encodes coded text → (63 : UInt8) ∉ coded →
      ∀ behind, ∃ decoded, uriDecode (coded ++ 0 :: behind) coded.length = some decoded ∧
        decoded.text = text ∧ decoded.len = text.length) ∧
    ∀ (coded : List UInt8) (stop : UInt8), (0 : UInt8) ∉ coded → (63 : UInt8) ∉ coded →
      (stop = 0 ∨ stop = 63) → Escaped coded →
      ∃ decoded text, Encodes coded text ∧
        (∀ behind, uriDecode (coded ++ stop :: behind) coded.length = some decoded) ∧
        decoded.str.length = coded.length + 1 ∧ decoded.t + 1 ≤ coded.length + 1 ∧
        decoded.text = text.takeWhile (· ≠ 0) ∧
        decoded.len = (text.takeWhile (· ≠ 0)).length := by
  constructor
  · intro text coded plain encodes noQuery behind
    have noZero := encodes.zero_not_mem plain
    refine ⟨_, uriDecode_eq encodes (Or.inl rfl) noZero noQuery behind, ?_, ?_⟩
    · rw [Decoded.text, takeWhile_eq_self plain, List.take_left]
    · rw [takeWhile_eq_self plain]
  · intro coded stop noZero noQuery ends escaped
    obtain ⟨text, encodes⟩ := escaped.encodes
    have short := encodes.length_le
    refine ⟨_, text, encodes, uriDecode_eq encodes ends noZero noQuery, ?_, ?_, ?_, rfl⟩
    · simp only [List.length_append, List.length_cons, List.length_drop, List.length_nil]
      omega
    · exact Nat.succ_le_succ short
    · have front := (List.takeWhile_prefix (· ≠ (0 : UInt8)) (l := text))
      rw [Decoded.text]
      dsimp only
      rw [List.take_append_of_le_length front.length_le]
      exact (List.prefix_iff_eq_take.mp front).symm

/-- A path with an escaped space and an escaped percent sign. -/
theorem uriDecode_right_sample :
    ∃ decoded, uriDecode (ascii "/a%20b%25" ++ 0 :: [1, 2]) 9 = some decoded ∧
      decoded.text = ascii "/a b%" ∧ decoded.len = 5 :=
  uriDecode_right.1 (ascii "/a b%") (ascii "/a%20b%25") (by decide)
    (.plain (by decide) (.plain (by decide) (@Encodes.escape _ _ 2 0 _ _ rfl rfl
      (.plain (by decide) (@Encodes.escape _ _ 2 5 _ _ rfl rfl .nil)))))
    (by decide) [1, 2]

end UriDecode
