import FlatC.Library.Call
import FlatC.Proofs.Eval.Setting
import FlatC.Proofs.Image.Literal
import FlatC.Proofs.Image.Text
import FlatC.Proofs.Value.Increment
import FlatC.Proofs.Value.TwosComplement

/-!
# Text functions

The functions that measure, compare and copy texts take characters out of memory, compare them as
UTF-8, and store characters again.  What they do can be said of bytes alone.  A Latin-1 character is
one byte, the order of UTF-8 is that of the characters, and a copy is read as a whole before the
first byte of it is written, so that it may overlap what it is a copy of.

* `Text.order_decode` says that texts compare as their bytes do;
* `LibraryFunction.call_eq_run` spares a call the conversion of arguments that need none;
* `LibraryFunction.text_functions_work_on_bytes` is the statement about the functions.
-/

namespace FlatC

/-! ## The order of Latin-1 texts -/

namespace Text

theorem compare_cons_of_lt {a b : UInt8} (h : a < b) (p q : List UInt8) :
    compare (a :: p) (b :: q) = .lt := by
  rw [List.compare_cons_cons, Std.compare_eq_lt.mpr h]
  rfl

theorem compare_append_self (front p q : List UInt8) :
    compare (front ++ p) (front ++ q) = compare p q := by
  induction front with
  | nil => rfl
  | cons a rest ih => simp [ih]

theorem ofNat_lt_ofNat {n m : Nat} (h : n < m) (small : m < 256) :
    UInt8.ofNat n < UInt8.ofNat m := by
  rw [UInt8.lt_iff_toNat_lt, UInt8.toNat_ofNat', UInt8.toNat_ofNat']
  omega

/-- A Latin-1 character is one byte in UTF-8, or two from `U+0080` on: its upper bits and its lower
ones. -/
theorem utf8EncodeChar_decodeByte (b : UInt8) :
    String.utf8EncodeChar (decodeByte b) =
      if b.toNat < 128 then [UInt8.ofNat b.toNat]
      else [UInt8.ofNat (b.toNat / 64 + 192), UInt8.ofNat (b.toNat % 64 + 128)] := by
  have small := b.toNat_lt
  have code : (decodeByte b).val.toNat = b.toNat := toNat_decodeByte b
  unfold String.utf8EncodeChar
  simp only [code]
  by_cases ascii : b.toNat < 128
  · rw [if_pos (Nat.le_of_lt_succ ascii), if_pos ascii]
  · have quotient : b.toNat / 64 % 32 = b.toNat / 64 := Nat.mod_eq_of_lt (by omega)
    rw [if_neg (by omega), if_pos (by omega), if_neg ascii, quotient]

theorem utf8_decode_cons (b : UInt8) (rest : List UInt8) :
    utf8 (decode (b :: rest)) = String.utf8EncodeChar (decodeByte b) ++ utf8 (decode rest) :=
  rfl

theorem exists_utf8_decode_cons (b : UInt8) (rest : List UInt8) :
    ∃ first more, utf8 (decode (b :: rest)) = first :: more := by
  rw [utf8_decode_cons]
  cases bytes : String.utf8EncodeChar (decodeByte b) with
  | nil => exact absurd bytes String.utf8EncodeChar_ne_nil
  | cons first more => exact ⟨first, _, rfl⟩

/-- A text that begins with a smaller Latin-1 character comes first. -/
theorem compare_utf8_of_lt {a b : UInt8} (h : a < b) (p q : List UInt8) :
    compare (String.utf8EncodeChar (decodeByte a) ++ p)
      (String.utf8EncodeChar (decodeByte b) ++ q) = .lt := by
  have small := b.toNat_lt
  rw [UInt8.lt_iff_toNat_lt] at h
  rw [utf8EncodeChar_decodeByte, utf8EncodeChar_decodeByte]
  by_cases asciiB : b.toNat < 128
  · rw [if_pos asciiB, if_pos (Nat.lt_trans h asciiB)]
    exact compare_cons_of_lt (ofNat_lt_ofNat h (by omega)) p q
  · rw [if_neg asciiB]
    by_cases asciiA : a.toNat < 128
    · rw [if_pos asciiA]
      exact compare_cons_of_lt (ofNat_lt_ofNat (by omega) (by omega)) ..
    · rw [if_neg asciiA]
      -- Both take two bytes, and the first ones may be the same.
      by_cases upper : a.toNat / 64 = b.toNat / 64
      · rw [upper]
        refine (compare_append_self [_] (_ :: p) (_ :: q)).trans ?_
        exact compare_cons_of_lt (ofNat_lt_ofNat (by omega) (by omega)) p q
      · exact compare_cons_of_lt (ofNat_lt_ofNat (by omega) (by omega)) ..

/-- Latin-1 texts compare as their bytes do, which are unsigned numbers. -/
theorem order_decode (s t : List UInt8) :
    order (decode s) (decode t) = if s < t then .lt else if s = t then .eq else .gt := by
  unfold order
  induction s generalizing t with
  | nil =>
    cases t with
    | nil => rfl
    | cons b t =>
      obtain ⟨first, more, bytes⟩ := exists_utf8_decode_cons b t
      rw [bytes, if_pos (List.nil_lt_cons b t)]
      exact List.compare_nil_cons
  | cons a s ih =>
    cases t with
    | nil =>
      obtain ⟨first, more, bytes⟩ := exists_utf8_decode_cons a s
      rw [bytes, if_neg (List.not_lt_nil _), if_neg (List.cons_ne_nil a s)]
      exact List.compare_cons_nil
    | cons b t =>
      rw [utf8_decode_cons, utf8_decode_cons]
      cases comparison : compare a b with
      | lt =>
        have less := Std.compare_eq_lt.mp comparison
        rw [compare_utf8_of_lt less, if_pos (List.cons_lt_cons_iff.mpr (.inl less))]
      | eq =>
        obtain rfl := Std.LawfulEqCmp.eq_of_compare comparison
        rw [compare_append_self, ih]
        simp
      | gt =>
        have greater := Std.compare_eq_gt.mp comparison
        have different : a ≠ b := (UInt8.ne_of_lt greater).symm
        have notLess : ¬ a :: s < b :: t := by
          rw [List.cons_lt_cons_iff]
          rintro (less | ⟨same, -⟩)
          · exact UInt8.lt_asymm less greater
          · exact different same
        have swapped := compare_utf8_of_lt greater (utf8 (decode t)) (utf8 (decode s))
        have notEqual : ¬ a :: s = b :: t := fun same => different (List.cons.inj same).1
        rw [if_neg notLess, if_neg notEqual]
        exact Std.OrientedCmp.gt_of_lt swapped

end Text

/-! ## Calls -/

theorem convertAll_self {function : String} {index : Nat} {types : List CType}
    {values : List Value} (same : List.Forall₂ (fun type v => v.implicit type = .ok v) types values) :
    convertAll function index types values = .ok values := by
  induction same generalizing index with
  | nil => rfl
  | cons first _ ih => simp only [convertAll, first, bind, Except.bind, pure, Except.pure, ih]

namespace LibraryFunction

variable {function : LibraryFunction} {machine : Machine} {arguments : List Value}

/-- Arguments that have the types of the parameters are used as they are. -/
theorem call_eq_run (fixed : function.isVariadic = false)
    (same : List.Forall₂ (fun type v => v.implicit type = .ok v) function.params arguments) :
    function.call arguments = function.run arguments := by
  have counted : function.takesCount arguments.length = true := by
    simp [takesCount, fixed, same.length_eq]
  funext machine
  have converted : function.convertArguments arguments = .ok arguments := by
    rw [convertArguments, if_pos counted, convertAll_self same]
  simp only [call, converted, bind, EStateM.bind, Exec.of]

theorem implicit_charPointer (address : Nat) :
    (Value.pointerTo address .charPointer).implicit .charPointer =
      .ok (.pointerTo address .charPointer) :=
  Value.implicit_self rfl _

/-- The text behind a pointer is the one that is found at its address. -/
theorem readText_pointerTo {image : Image} {address : Nat} {text : List UInt8}
    (small : address < wordRange) (h : image.TextAt address text) :
    (Value.pointerTo address .charPointer).readText image = .ok (Text.decode text) := by
  have bytes := Image.textBytes_eq_ok.mpr h
  refine bind_eq_ok.mpr ⟨text, ?_, rfl⟩
  rwa [← Value.toAddress_pointerTo small] at bytes

theorem textOf_of_readText {pointer : Value} {text : List Char}
    (read : pointer.readText machine.image = .ok text) :
    textOf pointer machine = .ok text machine := by
  simp only [textOf, Exec.ask, read]

/-- The length behind a pointer is that of the text at its address. -/
theorem lengthOf_eq {address : Nat} {text : List UInt8} (small : address < wordRange)
    (h : machine.image.TextAt address text) :
    lengthOf (.pointerTo address .charPointer) machine = .ok text.length machine := by
  have measured := Image.textLength_eq h
  rw [← Value.toAddress_pointerTo small] at measured
  have asked : (Value.pointerTo address .charPointer).textLength machine.image = .ok text.length :=
    measured
  simp only [lengthOf, Exec.ask, asked]

theorem textOf_eq {address : Nat} {text : List UInt8} (small : address < wordRange)
    (h : machine.image.TextAt address text) :
    textOf (.pointerTo address .charPointer) machine = .ok (Text.decode text) machine :=
  textOf_of_readText (readText_pointerTo small h)

section Text

variable {s d : Nat} {source target : List UInt8}

/-- A copy is a write of the bytes of the source and a zero. -/
theorem call_strcpy (smallD : d < wordRange) (smallS : s < wordRange)
    (h : machine.image.TextAt s source) :
    strcpy.call [.pointerTo d .charPointer, .pointerTo s .charPointer] machine =
      (Exec.onImage (Image.write d (source ++ [0])) >>= fun _ =>
        pure (.pointerTo d .charPointer)) machine := by
  have same : List.Forall₂ (fun type v => Value.implicit v type = .ok v) strcpy.params
      [.pointerTo d .charPointer, .pointerTo s .charPointer] :=
    .cons (implicit_charPointer d) (.cons (implicit_charPointer s) .nil)
  rw [call_eq_run rfl same, ← Image.writeText_decode]
  refine (Step.bind_of_ok (textOf_eq smallS h)).trans ?_
  rw [Value.toAddress_pointerTo smallD]

theorem call_strlen (smallS : s < wordRange) (h : machine.image.TextAt s source) :
    strlen.call [.pointerTo s .charPointer] machine = .ok (.ofInt source.length) machine := by
  have same : List.Forall₂ (fun type v => Value.implicit v type = .ok v) strlen.params
      [.pointerTo s .charPointer] := .cons (implicit_charPointer s) .nil
  rw [call_eq_run rfl same]
  exact Step.bind_of_ok (lengthOf_eq smallS h)

theorem call_strcmp (smallD : d < wordRange) (smallS : s < wordRange)
    (hd : machine.image.TextAt d target) (hs : machine.image.TextAt s source) :
    strcmp.call [.pointerTo d .charPointer, .pointerTo s .charPointer] machine =
      .ok (.ofInt (if target < source then -1 else if target = source then 0 else 1)) machine := by
  have same : List.Forall₂ (fun type v => Value.implicit v type = .ok v) strcmp.params
      [.pointerTo d .charPointer, .pointerTo s .charPointer] :=
    .cons (implicit_charPointer d) (.cons (implicit_charPointer s) .nil)
  rw [call_eq_run rfl same]
  refine (Step.bind_of_ok (textOf_eq smallD hd)).trans ?_
  refine (Step.bind_of_ok (textOf_eq smallS hs)).trans ?_
  have order : textOrder (Text.decode target) (Text.decode source) =
      if target < source then -1 else if target = source then 0 else 1 := by
    rw [textOrder, Text.order_decode]
    by_cases less : target < source
    · rw [if_pos less, if_pos less]
    · by_cases equal : target = source
      · rw [if_neg less, if_neg less, if_pos equal, if_pos equal]
      · rw [if_neg less, if_neg less, if_neg equal, if_neg equal]
  rw [order]
  rfl

/-- A length in the address space is a number of 32 bits.  As an `int` it is negative from `2 ^ 31`
on. -/
theorem integer_length {n : Nat} (small : n < wordRange) :
    (Value.ofInt n).Integer ((n : Int).bmod wordRange) := by
  have power : twoPow 53 = 9007199254740992 := rfl
  have range : wordRange = 4294967296 := rfl
  obtain ⟨_, ⟨⟩, -, -, integer⟩ := Value.wrapsTo_ofInt (show (n : Int).natAbs < twoPow 53 by omega)
  exact integer

/-- **The text functions work on bytes.**  Let `source` be the text at the address `s` of a memory
that 32 bits can address, whatever its bytes are.  A copy to an address `d` succeeds exactly if the
bytes of the text and a zero may be written there.  Then they stand there as they stood at `s`
before, also where the two ranges overlap, and nothing else has changed; if it fails, nothing at all
has.  The length of the text is an `int`: the number of the bytes if that is below `2 ^ 31`, and
otherwise the negative number with the same low 32 bits.  A comparison gives the order of the bytes
as unsigned numbers, the first difference deciding.  And a text of Latin-1 characters other than
zero is read back once it is written. -/
theorem text_functions_work_on_bytes (addressable : machine.image.size < wordRange)
    (h : machine.image.TextAt s source) :
    (∀ d, d < wordRange →
      let copied := strcpy.call [.pointerTo d .charPointer, .pointerTo s .charPointer] machine
      ((∃ value machine', copied = .ok value machine') ↔ d ≠ 0 ∧ machine.image.heapBottom ≤ d ∧
        d + (source.length + 1) ≤ machine.image.size) ∧
      (∀ value machine', copied = .ok value machine' →
        value = .pointerTo d .charPointer ∧
        machine' = { machine with image := machine'.image } ∧
        machine.image.OnlyBytes machine'.image ∧
        machine'.image.bytesAt d (source.length + 1) =
          machine.image.bytesAt s (source.length + 1) ∧
        ∀ i, i < d ∨ d + (source.length + 1) ≤ i →
          machine'.image.bytes[i]? = machine.image.bytes[i]?) ∧
      ∀ fault machine', copied = .error fault machine' → machine' = machine) ∧
    (∃ length, strlen.call [.pointerTo s .charPointer] machine = .ok length machine ∧
      length.type = .int ∧ length.Integer ((source.length : Int).bmod wordRange) ∧
      (length.toInt32 = source.length ↔ source.length < wordTop)) ∧
    (∀ d target, machine.image.TextAt d target →
      strcmp.call [.pointerTo d .charPointer, .pointerTo s .charPointer] machine =
        .ok (.ofInt (if target < source then -1 else if target = source then 0 else 1)) machine) ∧
    ∀ address text image', (∀ c ∈ text, c ≠ Char.ofNat 0 ∧ c.toNat < 256) →
      Image.writeText address text machine.image = .ok () image' →
      image'.readText address = .ok text := by
  have inside := h.inside
  have smallS : s < wordRange := by omega
  refine ⟨?_, ⟨_, call_strlen smallS h, rfl, ?_⟩, ?_, ?_⟩
  · intro d smallD copied
    have length : (source ++ [0]).length = source.length + 1 := List.length_append
    have called : copied = _ := call_strcpy smallD smallS h
    rw [← length, ← Image.checkWritable_iff, called]
    by_cases writable : machine.image.checkWritable d (source ++ [0]).length = .ok ()
    · have done := Exec.onImage_of_ok (Image.write_eq_ok.mpr ⟨writable, rfl⟩)
      rw [Step.bind_of_ok done]
      refine ⟨iff_of_true ⟨_, _, rfl⟩ writable, ?_, ?_⟩
      · intro value machine' done
        obtain ⟨rfl, rfl⟩ := EStateM.Result.ok.inj done
        have inside := (Image.checkWritable_iff.mp writable).2.2
        refine ⟨rfl, rfl, machine.image.onlyBytes_put d _, ?_, ?_⟩
        · rw [machine.image.bytesAt_put inside, length, h.bytes]
        · intro i outside
          rcases outside with below | above
          · exact machine.image.sameBytes_put (.inl below) |>.getElem?_eq
          · exact machine.image.sameBytes_put (.inr above) |>.getElem?_eq
      · intro fault machine' failed
        cases failed
    · obtain ⟨fault, refused⟩ := Image.write_of_refused writable
      rw [Step.bind_of_error (Exec.onImage_of_error refused)]
      refine ⟨iff_of_false (fun ⟨_, _, done⟩ => ?_) writable, ?_, ?_⟩
      · cases done
      · intro value machine' done
        cases done
      · intro fault' machine' failed
        exact (EStateM.Result.error.inj failed).2.symm
  · have integer := integer_length (show source.length < wordRange by omega)
    refine ⟨integer, ?_⟩
    have range : wordRange = 4294967296 := rfl
    have top : wordTop = 2147483648 := rfl
    rw [integer.toInt32_eq, Int.bmod_def, range, top]
    omega
  · intro d target hd
    have within := hd.inside
    exact call_strcmp (by omega) smallS hd h
  · intro address text image' latin done
    exact Image.readText_of_writeText latin done

end Text

/-- A machine with the bytes `E9 62 63 00` at the bottom of its stack, at the address 20. -/
def accented : Machine :=
  .start ((Image.blank ⟨4, 16, 8, .reclaim⟩).put 20 [0xE9, 0x62, 0x63, 0]) (.start [])

/-- The text is copied to the byte behind its first, over itself, and comes after its own rest,
since `E9` is more than `62` without a sign. -/
theorem accented_copied_over_itself :
    accented.image.size < wordRange ∧ accented.image.TextAt 20 [0xE9, 0x62, 0x63] ∧
      accented.image.TextAt 21 [0x62, 0x63] ∧
      (∃ machine', strcpy.call [.pointerTo 21 .charPointer, .pointerTo 20 .charPointer] accented =
          .ok (.pointerTo 21 .charPointer) machine' ∧
        machine'.image.bytesAt 21 4 = [0xE9, 0x62, 0x63, 0]) ∧
      (∃ length, strlen.call [.pointerTo 20 .charPointer] accented = .ok length accented ∧
        length.toInt32 = 3) ∧
      strcmp.call [.pointerTo 21 .charPointer, .pointerTo 20 .charPointer] accented =
        .ok (.ofInt (-1)) accented := by
  have addressable : accented.image.size < wordRange := by decide +kernel
  have whole : accented.image.TextAt 20 [0xE9, 0x62, 0x63] :=
    ⟨by decide, by decide +kernel, by decide⟩
  have rest : accented.image.TextAt 21 [0x62, 0x63] :=
    ⟨by decide, by decide +kernel, by decide⟩
  obtain ⟨copy, ⟨length, measured, -, -, exact⟩, comparison, -⟩ :=
    text_functions_work_on_bytes addressable whole
  refine ⟨addressable, whole, rest, ?_, ⟨length, measured, exact.mpr (by decide)⟩, ?_⟩
  · obtain ⟨succeeds, done, -⟩ := copy 21 (by decide)
    obtain ⟨value, machine', run⟩ := succeeds.mpr ⟨by decide, by decide, by decide +kernel⟩
    obtain ⟨rfl, -, -, bytes, -⟩ := done value machine' run
    exact ⟨machine', run, bytes.trans whole.bytes⟩
  · have first : ([0x62, 0x63] : List UInt8) < [0xE9, 0x62, 0x63] := by decide
    rw [comparison 21 _ rest, if_pos first]

/-- The regions of a memory in which the stack has room for `2 ^ 31` letters. -/
def roomyStack : Regions := ⟨16, 16, 2147483664, .reclaim⟩

/-- A machine with `2 ^ 31` letters at the bottom of its stack, at the address 32. -/
def lettered : Machine :=
  .start ((Image.blank roomyStack).filled 32 2147483648 65) (.start [])

/-- The text of `2 ^ 31` letters has the length `-2147483648`. -/
theorem long_text_has_negative_length :
    Image.create roomyStack = .ok (Image.blank roomyStack) ∧
      lettered.image.TextAt 32 (List.replicate 2147483648 65) ∧
      ∃ length, strlen.call [.pointerTo 32 .charPointer] lettered = .ok length lettered ∧
        length.Integer (-2147483648) := by
  have untouched : (Image.blank roomyStack).bytes[32 + 2147483648]? = some 0 := by
    unfold Image.blank
    dsimp only
    rw [Image.put, Image.getElem?_putFrom_of_le _ _ _ (by decide), Image.put,
      Image.getElem?_putFrom_of_le _ _ _ (by decide)]
    exact Bytes.getElem?_replicate (by decide)
  have letters : lettered.image.TextAt 32 (List.replicate 2147483648 65) :=
    Image.textAt_filled (by decide) (by decide) untouched
  refine ⟨rfl, letters, _, call_strlen (by decide) letters, ?_⟩
  rw [List.length_replicate]
  exact integer_length (by decide)

end LibraryFunction

end FlatC
