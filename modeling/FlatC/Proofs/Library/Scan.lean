import FlatC.Proofs.Console.Reading
import FlatC.Proofs.Decimal.IntText
import FlatC.Proofs.Library.Text
import FlatC.Proofs.Value.TwosComplement

/-!
# Numbers printed and read again

Numbers that are printed with blanks between them are words of an input, and formatted input reads
them one by one.  A `Transfer` is one number on its way: the blanks in front of it, the argument
that is printed, and the pointer through which it is stored when it is read.

* `Transfer.render_layout` and `Transfer.call_printf` say what is printed;
* `Scan.directive_transfer` reads one number, and `Scan.run_transfers` all of them, whatever
  else stands in the format text;
* `Transfer.placed` is what has become of memory; `Transfer.read_placed` finds the numbers there,
  and `Transfer.sameBytes_placed` everything else;
* `Transfer.scanf_reads_back_printf` puts them together.
-/

namespace FlatC

/-! ## Calls with a format text -/

/-- A call of a function for formatted text converts the format and leaves the other arguments as
they are. -/
theorem LibraryFunction.call_variadic {function : LibraryFunction} {format pointer : Value}
    (variadic : function.isVariadic = true) (converted : format.implicit .charPointer = .ok pointer)
    (arguments : List Value) :
    function.call (format :: arguments) = function.run (pointer :: arguments) := by
  have first : function.params = [.charPointer] := by
    cases function <;> first | rfl | cases variadic
  have counted : function.takesCount (format :: arguments).length = true := by
    simp [takesCount, variadic, first]
  have all : function.convertArguments (format :: arguments) = .ok (pointer :: arguments) := by
    rw [convertArguments, if_pos counted, first]
    simp only [convertAll, converted, bind, Except.bind, pure, Except.pure]
  funext machine
  simp only [call, all, bind, EStateM.bind, Exec.of]

/-! ## Numbers on their way -/

/-- A number of type `int` or `char` that is printed behind some blanks, and the pointer to an `int`
through which it is read again. -/
structure Transfer where
  gap : List Char
  argument : Value
  number : Int
  target : Value
  blank : ∀ c ∈ gap, Text.isBlank c = true
  integer : argument.Integer number
  reached : target.type.pointee? = some .int

namespace Transfer

/-- The format text that prints the numbers, each behind its blanks. -/
def layout (transfers : List Transfer) : List Char :=
  transfers.flatMap fun transfer => transfer.gap ++ ['%', 'd']

/-- The numbers in base ten, each behind its blanks. -/
def text (transfers : List Transfer) : List Char :=
  transfers.flatMap fun transfer => transfer.gap ++ Decimal.intText transfer.number

/-- There are blanks between any two of the numbers; the first may stand without any. -/
def Separated (transfers : List Transfer) : Prop :=
  ∀ transfer ∈ transfers.tail, transfer.gap ≠ []

/-- The place that the number is read into. -/
def address (transfer : Transfer) : Nat :=
  transfer.target.toAddress

/-- The bytes that the number is stored as. -/
def bytes (transfer : Transfer) : List UInt8 :=
  Word.toBytes 4 (Value.ofInt transfer.number).toAddress

/-- The two numbers are read into places apart from each other. -/
def Apart (first second : Transfer) : Prop :=
  first.address + 4 ≤ second.address ∨ second.address + 4 ≤ first.address

instance : DecidablePred Separated := fun transfers =>
  inferInstanceAs (Decidable (∀ transfer ∈ transfers.tail, transfer.gap ≠ []))

instance : DecidableRel Apart := fun first second =>
  inferInstanceAs (Decidable (first.address + 4 ≤ second.address ∨
    second.address + 4 ≤ first.address))

/-- The image with all numbers in their places. -/
def placed (image : Image) (transfers : List Transfer) : Image :=
  transfers.foldl (fun image transfer => image.put transfer.address transfer.bytes) image

variable {transfer : Transfer} {transfers : List Transfer} {image : Image}

@[simp] theorem length_bytes (transfer : Transfer) : transfer.bytes.length = 4 :=
  Word.length_toBytes ..

theorem text_cons (transfer : Transfer) (transfers : List Transfer) :
    text (transfer :: transfers) =
      (transfer.gap ++ Decimal.intText transfer.number) ++ text transfers :=
  List.flatMap_cons

theorem layout_cons (transfer : Transfer) (transfers : List Transfer) :
    layout (transfer :: transfers) = (transfer.gap ++ ['%', 'd']) ++ layout transfers :=
  List.flatMap_cons

theorem ofInt_integer (transfer : Transfer) :
    (Value.ofInt transfer.number).Integer transfer.number :=
  Value.integer_int transfer.integer.bounds.1 transfer.integer.bounds.2

/-! ## Printing -/

/-- Blanks are copied. -/
theorem render_gap {gap rest : List Char} {arguments : List Value} {rendered : List Char}
    (blank : ∀ c ∈ gap, Text.isBlank c = true)
    (behind : Print.render image (Print.piecesFrom .copying rest) arguments = .ok rendered) :
    Print.render image (Print.piecesFrom .copying (gap ++ rest)) arguments =
      .ok (gap ++ rendered) := by
  induction gap with
  | nil => exact behind
  | cons c gap ih =>
    have noDirective : c ≠ '%' := by
      rintro rfl
      exact absurd (blank '%' List.mem_cons_self) (by decide)
    have others := ih fun d among => blank d (List.mem_cons_of_mem c among)
    rw [List.cons_append, Print.piecesFrom, if_neg noDirective, Print.render, others]
    rfl

/-- An integer is written in base ten. -/
theorem directiveText_decimal {v : Value} {n : Int} (integer : v.Integer n) :
    Print.directiveText image none 'd' v = .ok (Decimal.intText n) := by
  have whole : v.type.isWhole = true := by
    obtain type | type := integer.typed <;> rw [type] <;> rfl
  simp only [Print.directiveText, whole, if_true, integer.toInt32_eq]
  rfl

theorem render_layout (image : Image) (transfers : List Transfer) :
    Print.render image (Print.pieces (layout transfers)) (transfers.map (·.argument)) =
      .ok (text transfers) := by
  induction transfers with
  | nil => rfl
  | cons transfer transfers ih =>
    rw [layout_cons, text_cons, List.append_assoc, List.append_assoc, Print.pieces]
    refine render_gap transfer.blank ?_
    have directive : Print.piecesFrom .copying (['%', 'd'] ++ layout transfers) =
        .directive none 'd' :: Print.pieces (layout transfers) := rfl
    rw [directive, List.map_cons, Print.render, directiveText_decimal transfer.integer, ih]
    rfl

/-- What is printed is the text of the numbers, and its length is answered. -/
theorem call_printf {machine : Machine} {format pointer : Value}
    (converted : format.implicit .charPointer = .ok pointer)
    (found : pointer.readText machine.image = .ok (layout transfers)) :
    LibraryFunction.printf.call (format :: transfers.map (·.argument)) machine =
      .ok (.ofInt (text transfers).length)
        { machine with console := machine.console.print (text transfers) } := by
  have rendered : Exec.ask (fun machine : Machine => Print.render machine.image
      (Print.pieces (layout transfers)) (transfers.map (·.argument))) machine =
        .ok (text transfers) machine := by
    simp only [Exec.ask, render_layout]
  rw [LibraryFunction.call_variadic rfl converted]
  refine (Step.bind_of_ok (LibraryFunction.textOf_of_readText found)).trans ?_
  exact Step.bind_of_ok rendered

/-! ## Memory -/

theorem placed_cons (image : Image) (transfer : Transfer) (transfers : List Transfer) :
    placed image (transfer :: transfers) =
      placed (image.put transfer.address transfer.bytes) transfers :=
  List.foldl_cons ..

theorem onlyBytes_placed (image : Image) (transfers : List Transfer) :
    image.OnlyBytes (placed image transfers) := by
  induction transfers generalizing image with
  | nil => exact .refl image
  | cons transfer transfers ih =>
    rw [placed_cons]
    exact (image.onlyBytes_put ..).trans (ih _)

/-- A range apart from all places is left alone. -/
theorem sameBytes_placed {start stop : Nat} (image : Image)
    (outside : ∀ transfer ∈ transfers,
      stop ≤ transfer.address ∨ transfer.address + 4 ≤ start) :
    image.SameBytes (placed image transfers) start stop := by
  induction transfers generalizing image with
  | nil => exact Image.SameBytes.refl _ _ _
  | cons transfer transfers ih =>
    have first : image.SameBytes (image.put transfer.address transfer.bytes) start stop :=
      image.sameBytes_put (by simpa using outside transfer List.mem_cons_self)
    rw [placed_cons]
    exact first.trans (ih _ fun other among => outside other (List.mem_cons_of_mem _ among))

/-- Whether a place may be written does not depend on the contents of memory. -/
theorem checkWritable_put {address size start : Nat} {data : List UInt8}
    (writable : image.checkWritable address size = .ok ()) :
    (image.put start data).checkWritable address size = .ok () := by
  rw [Image.checkWritable_iff] at writable ⊢
  rwa [(image.onlyBytes_put start data).heapBottom, Image.size_put]

/-- Storing a number puts its bytes in their place. -/
theorem storeAs_number (writable : image.checkWritable transfer.address 4 = .ok ()) :
    (Value.ofInt transfer.number).storeAs transfer.address .int image =
      .ok () (image.put transfer.address transfer.bytes) := by
  have same : (Value.ofInt transfer.number).implicit .int = .ok (.ofInt transfer.number) :=
    Value.implicit_self rfl _
  have bytes : Image.stored? (Value.ofInt transfer.number) = some transfer.bytes := rfl
  simp only [Value.storeAs, same, Store.of, bind, EStateM.bind, Image.store, bytes]
  exact Image.write_eq_ok.mpr ⟨by rwa [length_bytes], rfl⟩

/-- A number in its place is read from there. -/
theorem read_put (table : StructTable)
    (writable : image.checkWritable transfer.address 4 = .ok ()) :
    (image.put transfer.address transfer.bytes).read table transfer.address .int =
      .ok (.lvalue (.ofInt transfer.number) .int transfer.address) := by
  obtain ⟨nonzero, -, inside⟩ := Image.checkWritable_iff.mp writable
  have integer := transfer.ofInt_integer
  obtain ⟨lower, upper⟩ := integer.bounds
  have room : transfer.address + transfer.bytes.length ≤ image.size := by simpa using inside
  have back := Image.readUnsigned_put nonzero room
  have word := Value.signedBytes_of_isWhole (v := .ofInt transfer.number) lower (by omega)
    integer.isWhole wordRange (Nat.dvd_refl _) lower (Int.lt_add_one_of_le upper)
  have read : Word.ofBytes transfer.bytes = (Value.ofInt transfer.number).toAddress % wordRange :=
    Word.ofBytes_toBytes ..
  rw [length_bytes, read] at back
  simp only [Image.read, Image.readInt, back]
  exact congrArg (fun n => Except.ok (Value.lvalue (.ofInt n) .int transfer.address)) word

/-- All numbers are in their places at the end if these are apart from each other. -/
theorem read_placed (table : StructTable) (apart : transfers.Pairwise Apart)
    (writable : ∀ transfer ∈ transfers, image.checkWritable transfer.address 4 = .ok ()) :
    ∀ transfer ∈ transfers, (placed image transfers).read table transfer.address .int =
      .ok (.lvalue (.ofInt transfer.number) .int transfer.address) := by
  induction transfers generalizing image with
  | nil => exact fun _ => nofun
  | cons first transfers ih =>
    obtain ⟨fromFirst, apart⟩ := List.pairwise_cons.mp apart
    intro transfer among
    rw [placed_cons]
    rcases List.mem_cons.mp among with rfl | among
    · have sized : table.sizeOf .int = .ok 4 := rfl
      have kept := sameBytes_placed (image.put transfer.address transfer.bytes) fromFirst
      rw [Image.read_congr sized (onlyBytes_placed ..).size kept]
      exact read_put table (writable transfer List.mem_cons_self)
    · refine ih apart (fun other among => ?_) transfer among
      exact checkWritable_put (writable other (List.mem_cons_of_mem _ among))

/-- As many places of four bytes as there are numbers lie below the bound of addresses. -/
theorem length_le (apart : transfers.Pairwise Apart) : transfers.length ≤ 1073741824 := by
  have distinct : (transfers.map fun transfer => transfer.address / 4).Nodup := by
    refine List.pairwise_map.mpr (apart.imp fun {first second} apart same => ?_)
    unfold Apart at apart
    omega
  have below : (transfers.map fun transfer => transfer.address / 4) ⊆ List.range 1073741824 := by
    intro quarter among
    obtain ⟨transfer, -, rfl⟩ := List.mem_map.mp among
    have bounded : transfer.address < 4294967296 := by
      have range : (0 : Int) < wordRange := by decide
      have upper := Int.emod_lt_of_pos transfer.target.number.toInt64 range
      simp only [wordRange] at upper
      simp only [address, Value.toAddress, wordRange]
      omega
    exact List.mem_range.mpr (by omega)
  simpa using (List.subperm_of_subset distinct below).length_le

end Transfer

/-! ## Reading -/

namespace Scan

open Transfer

/-- A format text for input that asks for some numbers in base ten, and for nothing else.  What
stands between the directives has no meaning. -/
inductive Decimals : List Char → Nat → Prop where
  | nil : Decimals [] 0
  | char {c : Char} {rest : List Char} {count : Nat} (other : c ≠ '%')
      (decimals : Decimals rest count) : Decimals (c :: rest) count
  | percent {rest : List Char} {count : Nat} (decimals : Decimals rest count) :
      Decimals ('%' :: '%' :: rest) count
  | directive {rest : List Char} {count : Nat} (decimals : Decimals rest count) :
      Decimals ('%' :: 'd' :: rest) (count + 1)

variable {transfer : Transfer} {transfers : List Transfer} {machine : Machine}
  {following rest format : List Char}

/-- Blanks do not ask for anything. -/
theorem Decimals.gap_append {gap : List Char} {count : Nat}
    (blank : ∀ c ∈ gap, Text.isBlank c = true) (behind : Decimals rest count) :
    Decimals (gap ++ rest) count := by
  induction gap with
  | nil => exact behind
  | cons c gap ih =>
    refine .char ?_ (ih fun d among => blank d (List.mem_cons_of_mem c among))
    rintro rfl
    exact absurd (blank '%' List.mem_cons_self) (by decide)

/-- The format text that numbers are printed with also asks for them. -/
theorem decimals_layout (transfers : List Transfer) :
    Decimals (layout transfers) transfers.length := by
  induction transfers with
  | nil => exact .nil
  | cons transfer transfers ih =>
    rw [layout_cons, List.append_assoc]
    exact .gap_append transfer.blank (.directive ih)

/-- The next number that is pending is taken with the blanks in front of it. -/
theorem nextWord_transfer
    (start : machine.console.pending =
      (transfer.gap ++ Decimal.intText transfer.number) ++ following)
    (ended : Text.AtBreak following) :
    nextWord machine = .ok (some (Decimal.intText transfer.number))
      { machine with console := { machine.console with pending := following } } := by
  have taken : machine.console.nextWord = (some (Decimal.intText transfer.number),
      { machine.console with pending := following }) :=
    Console.read_of_takes start (.word transfer.gap _ following transfer.blank
      (Decimal.intText_ne_nil _) (fun _ => Decimal.isBlank_of_mem_intText) ended)
  show EStateM.Result.ok machine.console.nextWord.1
    { machine with console := machine.console.nextWord.2 } = _
  rw [taken]

/-- **Step.**  A directive reads the next number, stores it and takes nothing else. -/
theorem directive_transfer
    (start : machine.console.pending =
      (transfer.gap ++ Decimal.intText transfer.number) ++ following)
    (ended : Text.AtBreak following)
    (writable : machine.image.checkWritable transfer.address 4 = .ok ()) :
    directive 'd' transfer.target machine =
      .ok true { machine with
        image := machine.image.put transfer.address transfer.bytes
        console := { machine.console with pending := following } } := by
  have bounds := transfer.integer.bounds
  have pointer := CType.isPointerLike_of_pointee? transfer.reached
  have pointee : transfer.target.type.pointee = .ok .int := by
    rw [CType.pointee, transfer.reached]
  have parsed : Decimal.readInt64? (Decimal.intText transfer.number) = some transfer.number :=
    Decimal.readInt64?_intText (by simp only [longTop]; omega) (by simp only [longTop]; omega)
  rw [directive, pointer, pointee]
  have typed : Exec.of (.ok CType.int) machine = .ok .int machine := rfl
  refine (Step.bind_of_ok typed).trans ?_
  refine (Step.bind_of_ok (nextWord_transfer start ended)).trans ?_
  simp only [Option.bind_some, parsed, storing]
  exact Step.bind_of_ok (Exec.onImage_of_ok (storeAs_number writable))

/-- The numbers are pending, with the rest of the input behind a blank, and they can be stored in
places apart from each other. -/
structure Ready (transfers : List Transfer) (machine : Machine) (rest : List Char) : Prop where
  separated : Separated transfers
  pending : machine.console.pending = text transfers ++ rest
  ended : Text.AtBreak rest
  writable : ∀ transfer ∈ transfers, machine.image.checkWritable transfer.address 4 = .ok ()
  apart : transfers.Pairwise Apart

/-- In front of numbers that all have blanks before them there is a break. -/
theorem atBreak_text (separated : ∀ transfer ∈ transfers, transfer.gap ≠ [])
    (ended : Text.AtBreak rest) : Text.AtBreak (text transfers ++ rest) := by
  cases transfers with
  | nil => exact ended
  | cons transfer transfers =>
    obtain ⟨c, gap, blanks⟩ := List.exists_cons_of_ne_nil (separated transfer List.mem_cons_self)
    have blank := transfer.blank c (blanks ▸ List.mem_cons_self)
    intro d first
    rw [text_cons, blanks] at first
    cases first
    exact blank

namespace Ready

/-- The first of the numbers ends at a break. -/
theorem atBreak (h : Ready (transfer :: transfers) machine rest) :
    Text.AtBreak (text transfers ++ rest) :=
  atBreak_text h.separated h.ended

theorem start (h : Ready (transfer :: transfers) machine rest) :
    machine.console.pending =
      (transfer.gap ++ Decimal.intText transfer.number) ++ (text transfers ++ rest) := by
  rw [h.pending, text_cons, List.append_assoc]

/-- Once the first number is stored, the others can be read. -/
theorem next (h : Ready (transfer :: transfers) machine rest) :
    Ready transfers { machine with
      image := machine.image.put transfer.address transfer.bytes
      console := { machine.console with pending := text transfers ++ rest } } rest where
  separated := fun other among => h.separated other (List.mem_of_mem_tail among)
  pending := rfl
  ended := h.ended
  writable := fun other among =>
    checkWritable_put (h.writable other (List.mem_cons_of_mem _ among))
  apart := (List.pairwise_cons.mp h.apart).2

end Ready

/-- **Run.**  The directives of a format text read as many numbers as they ask for, and leave what
is behind the last of them. -/
theorem run_transfers {count : Nat} (decimals : Decimals format count) (stored : Nat)
    (counted : transfers.length = count) (ready : Ready transfers machine rest) :
    run format (transfers.map (·.target)) stored machine =
      .ok (stored + count) { machine with
        image := placed machine.image transfers
        console := { machine.console with pending := rest } } := by
  induction decimals generalizing transfers machine stored with
  | nil =>
    obtain rfl := List.length_eq_zero_iff.mp counted
    obtain rfl : machine.console.pending = rest := ready.pending
    rfl
  | char other _ ih =>
    rw [run.eq_def]
    simp only [if_pos other]
    exact ih stored counted ready
  | percent _ ih =>
    exact ih stored counted ready
  | @directive format count _ ih =>
    obtain ⟨transfer, transfers, rfl⟩ := List.exists_cons_of_length_eq_add_one counted
    have first := directive_transfer ready.start ready.atBreak
      (ready.writable transfer List.mem_cons_self)
    have others := ih (stored + 1) (Nat.succ.inj counted) ready.next
    refine (Step.bind_of_ok first).trans (others.trans ?_)
    rw [Nat.add_right_comm, placed_cons]
    rfl

/-- A call of the function for formatted input. -/
theorem call_scanf {format' pointer : Value} {count : Nat}
    (converted : format'.implicit .charPointer = .ok pointer)
    (found : pointer.readText machine.image = .ok format) (decimals : Decimals format count)
    (counted : transfers.length = count) (ready : Ready transfers machine rest) :
    LibraryFunction.scanf.call (format' :: transfers.map (·.target)) machine =
      .ok (.ofInt count) { machine with
        image := placed machine.image transfers
        console := { machine.console with pending := rest } } := by
  have done := run_transfers decimals 0 counted ready
  rw [Nat.zero_add] at done
  rw [LibraryFunction.call_variadic rfl converted]
  refine (Step.bind_of_ok (LibraryFunction.textOf_of_readText found)).trans ?_
  exact Step.bind_of_ok done

end Scan

/-! ## There and back -/

/-- **What is printed is read back.**  Take any number of integers with blanks between them.  What
is printed for them, by a format text of these blanks and as many `%d`, are the numbers in base ten
behind the same blanks.  Let any machine have this as its input, up to a blank or the end, and call
it with a format text that asks for as many numbers, such as the one that they are printed with, and
with pointers to as many `int` that can be written and do not overlap.  Then the call answers how
many numbers there are.  Each number is found, exactly and of type `int`, where its pointer points
to, and nothing else in memory has changed.  The input that is left begins right behind the last
number. -/
theorem Transfer.scanf_reads_back_printf (transfers : List Transfer) :
    (∀ image, Print.render image (Print.pieces (layout transfers)) (transfers.map (·.argument)) =
      .ok (text transfers)) ∧
    (∀ machine format pointer, Value.implicit format .charPointer = .ok pointer →
      pointer.readText machine.image = .ok (layout transfers) →
      LibraryFunction.printf.call (format :: transfers.map (·.argument)) machine =
        .ok (.ofInt (text transfers).length)
          { machine with console := machine.console.print (text transfers) }) ∧
    Scan.Decimals (layout transfers) transfers.length ∧
    ∀ table machine rest format pointer directives, Scan.Ready transfers machine rest →
      Value.implicit format .charPointer = .ok pointer →
      pointer.readText machine.image = .ok directives →
      Scan.Decimals directives transfers.length →
      ∃ image, LibraryFunction.scanf.call (format :: transfers.map (·.target)) machine =
          .ok (.ofInt transfers.length)
            { machine with image := image, console := { machine.console with pending := rest } } ∧
        (Value.ofInt transfers.length).toInt32 = transfers.length ∧
        (∀ transfer ∈ transfers, image.read table transfer.address .int =
          .ok (.lvalue (.ofInt transfer.number) .int transfer.address)) ∧
        machine.image.OnlyBytes image ∧
        ∀ i, (∀ transfer ∈ transfers, i < transfer.address ∨ transfer.address + 4 ≤ i) →
          image.bytes[i]? = machine.image.bytes[i]? := by
  refine ⟨fun image => render_layout image transfers, fun machine format pointer => call_printf,
    Scan.decimals_layout transfers, ?_⟩
  intro table machine rest format pointer directives ready converted found decimals
  have short := length_le ready.apart
  have counted : (Value.ofInt transfers.length).Integer transfers.length :=
    Value.integer_int (by omega) (by omega)
  refine ⟨placed machine.image transfers, Scan.call_scanf converted found decimals rfl ready,
    counted.toInt32_eq, read_placed table ready.apart ready.writable,
    onlyBytes_placed machine.image transfers, fun i outside => ?_⟩
  exact (sameBytes_placed machine.image outside).getElem?_eq

namespace Transfer

/-- The least `int`, read into the bytes from 32 on. -/
def least : Transfer where
  gap := []
  argument := .ofInt (-2147483648)
  number := -2147483648
  target := .pointerTo 32 (.pointer .int)
  blank := nofun
  integer := Value.integer_int (by decide) (by decide)
  reached := rfl

/-- A `char` behind a line break, read into the bytes from 37 on. -/
def seven : Transfer where
  gap := ['\n']
  argument := .rvalue (.ofInt 7) .char
  number := 7
  target := .pointerTo 37 (.pointer .int)
  blank := List.forall_mem_singleton.mpr rfl
  integer := Value.integer_char (by decide) (by decide)
  reached := rfl

/-- A machine with a format text for output at the address 4, one for input at the address 10, and
the two numbers as its input. -/
def twoNumbers : Machine :=
  .start ((Image.blank ⟨16, 16, 16, .reclaim⟩).put 4
      (Text.encode "%d\n%d".toList ++ 0 :: (Text.encode "%d,%d".toList ++ [0])))
    (.start "-2147483648\n7 x".toList)

/-- The two numbers are printed as they are pending, and read from there up to the blank behind the
second one. -/
theorem least_and_seven_are_read_back :
    LibraryFunction.printf.call [.pointerTo 4 .charPointer, least.argument, seven.argument]
        twoNumbers = .ok (.ofInt 13)
          { twoNumbers with console := twoNumbers.console.print "-2147483648\n7".toList } ∧
      Scan.Ready [least, seven] twoNumbers " x".toList ∧ Scan.Decimals "%d,%d".toList 2 ∧
      ∃ image, LibraryFunction.scanf.call
          [.pointerTo 10 .charPointer, least.target, seven.target] twoNumbers =
            .ok (.ofInt 2) { twoNumbers with
              image := image
              console := { twoNumbers.console with pending := " x".toList } } ∧
        image.read .empty 32 .int = .ok (.lvalue (.ofInt (-2147483648)) .int 32) ∧
        image.read .empty 37 .int = .ok (.lvalue (.ofInt 7) .int 37) ∧
        image.bytes[36]? = twoNumbers.image.bytes[36]? := by
  have atLeast : least.address = 32 := by decide +kernel
  have atSeven : seven.address = 37 := by decide +kernel
  have ready : Scan.Ready [least, seven] twoNumbers " x".toList :=
    { separated := by decide
      pending := by decide +kernel
      ended := by rintro c ⟨⟩; decide
      writable := by decide +kernel
      apart := by decide +kernel }
  have decimals : Scan.Decimals "%d,%d".toList 2 := .directive (.char (by decide) (.directive .nil))
  have output : twoNumbers.image.TextAt 4 (Text.encode (layout [least, seven])) :=
    ⟨by decide, by decide +kernel, by decide⟩
  have input : twoNumbers.image.TextAt 10 (Text.encode "%d,%d".toList) :=
    ⟨by decide, by decide +kernel, by decide⟩
  obtain ⟨-, printed, -, scanned⟩ := scanf_reads_back_printf [least, seven]
  obtain ⟨image, called, -, read, -, kept⟩ := scanned .empty twoNumbers " x".toList _ _ _ ready
    (LibraryFunction.implicit_charPointer 10)
    (LibraryFunction.readText_pointerTo (by decide) input) decimals
  have printed := printed twoNumbers _ _ (LibraryFunction.implicit_charPointer 4)
    (LibraryFunction.readText_pointerTo (by decide) output)
  refine ⟨printed, ready, decimals, image, called, ?_, ?_, kept 36 (by decide +kernel)⟩
  · exact atLeast ▸ read least List.mem_cons_self
  · exact atSeven ▸ read seven (List.mem_cons_of_mem _ List.mem_cons_self)

end Transfer

end FlatC
