import FlatC.Image.Create
import FlatC.Proofs.Image.Bytes
import FlatC.Proofs.Image.Operation
import FlatC.Proofs.Refine

/-!
# Images with more room

An image may be given more bytes at its end, where the stack lies.  Whatever succeeds in the
smaller image then succeeds in the larger one with the same answer: bytes that can be reached are
the same, and a search that comes to its end in one comes to the same end in the other.  A fault in
the smaller image says nothing of the larger one, unless it is a request to end the run.

* `Image.Wider` compares the two images;
* `Image.Wider.read`, `Image.Wider.textBytes` and `Image.Wider.firstFit` are what it means for
  reading, for texts and for the search of the allocator;
* `Image.widening` are the rules from which it follows for each operation.
-/

namespace FlatC

/-- The faults that end a run well. -/
abbrev CleanExit (fault : Fault) : Prop :=
  fault.isCleanExit = true

/-! ## Bytes -/

/-- The second run of bytes starts with the first one. -/
def Starts (bytes bytes' : Bytes) : Prop :=
  bytes.size ≤ bytes'.size ∧ ∀ i, i < bytes.size → bytes'[i]? = bytes[i]?

theorem Starts.set {bytes bytes' : Bytes} (h : Starts bytes bytes') (place : Nat) (byte : UInt8) :
    Starts (bytes.set place byte) (bytes'.set place byte) := by
  obtain ⟨longer, same⟩ := h
  refine ⟨by simpa using longer, fun i inside => ?_⟩
  rw [Bytes.size_set] at inside
  have inside' : i < bytes'.size := Nat.lt_of_lt_of_le inside longer
  simp only [Bytes.getElem?_set, same i inside, inside, inside', and_true]

theorem Starts.fill {bytes bytes' : Bytes} (h : Starts bytes bytes') (start count : Nat)
    (byte : UInt8) : Starts (bytes.fill start count byte) (bytes'.fill start count byte) := by
  obtain ⟨longer, same⟩ := h
  refine ⟨by simpa using longer, fun i inside => ?_⟩
  rw [Bytes.size_fill] at inside
  have inside' : i < bytes'.size := Nat.lt_of_lt_of_le inside longer
  simp only [Bytes.getElem?_fill, same i inside, inside, inside', and_true]

theorem Starts.putFrom {bytes bytes' : Bytes} (h : Starts bytes bytes') (start : Nat)
    (data : List UInt8) :
    Starts (Image.putFrom bytes start data) (Image.putFrom bytes' start data) := by
  induction data generalizing bytes bytes' start with
  | nil => exact h
  | cons byte rest ih => exact ih (h.set start byte) (start + 1)

namespace Image

/-- The second image is the first with more bytes at its end. -/
def Wider (small large : Image) : Prop :=
  ∃ bytes, Starts small.bytes bytes ∧ large = { small with bytes := bytes }

namespace Wider

variable {small large : Image}

theorem starts (h : small.Wider large) : Starts small.bytes large.bytes := by
  obtain ⟨bytes, starts, rfl⟩ := h
  exact starts

theorem size_le (h : small.Wider large) : small.size ≤ large.size :=
  h.starts.1

theorem sameBytes (h : small.Wider large) {start stop : Nat} (inside : stop ≤ small.size) :
    small.SameBytes large start stop :=
  fun i _ upper => h.starts.2 i (Nat.lt_of_lt_of_le upper inside)

theorem heapBottom (h : small.Wider large) : large.heapBottom = small.heapBottom := by
  obtain ⟨bytes, -, rfl⟩ := h
  rfl

theorem stackBottom (h : small.Wider large) : large.stackBottom = small.stackBottom := by
  obtain ⟨bytes, -, rfl⟩ := h
  rfl

theorem isLive (h : small.Wider large) (address : Nat) :
    large.isLive address = small.isLive address := by
  obtain ⟨bytes, -, rfl⟩ := h
  rfl

theorem put (h : small.Wider large) (address : Nat) (data : List UInt8) :
    (small.put address data).Wider (large.put address data) := by
  obtain ⟨bytes, starts, rfl⟩ := h
  exact ⟨putFrom bytes address data, starts.putFrom address data, rfl⟩

theorem filled (h : small.Wider large) (address size : Nat) (byte : UInt8) :
    (small.filled address size byte).Wider (large.filled address size byte) := by
  obtain ⟨bytes, starts, rfl⟩ := h
  exact ⟨bytes.fill address size byte, starts.fill address size byte, rfl⟩

/-! ## Checks -/

theorem checkBounds (h : small.Wider large) (address size : Nat) :
    Refined CleanExit (small.checkBounds address size) (large.checkBounds address size) := by
  unfold Image.checkBounds
  by_cases inside : address + size ≤ small.size
  · rw [if_pos inside, if_pos (Nat.le_trans inside h.size_le)]
    exact .same _
  · rw [if_neg inside]
    exact .unseen _ nofun

theorem checkReadable (h : small.Wider large) (address size : Nat) :
    Refined CleanExit (small.checkReadable address size) (large.checkReadable address size) := by
  unfold Image.checkReadable
  split
  · exact .same _
  · exact h.checkBounds address size

theorem checkWritable (h : small.Wider large) (address size : Nat) :
    Refined CleanExit (small.checkWritable address size) (large.checkWritable address size) := by
  refine .bind (h.checkReadable address size) fun _ _ => ?_
  rw [h.heapBottom]
  exact .same _

end Wider

theorem inside_of_checkBounds {image : Image} {address size : Nat} {u : Unit}
    (h : image.checkBounds address size = .ok u) : address + size ≤ image.size := by
  unfold checkBounds at h
  split at h
  · assumption
  · cases h

theorem inside_of_checkReadable {image : Image} {address size : Nat} {u : Unit}
    (h : image.checkReadable address size = .ok u) : address + size ≤ image.size := by
  unfold checkReadable at h
  split at h
  · cases h
  · exact inside_of_checkBounds h

namespace Wider

variable {small large : Image}

/-! ## Reading -/

theorem readBytes (h : small.Wider large) (address size : Nat) :
    Refined CleanExit (small.readBytes address size) (large.readBytes address size) := by
  refine .bind (h.checkReadable address size) fun _ checked => ?_
  rw [bytesAt_congr (h.sameBytes (inside_of_checkReadable checked))]
  exact .same _

theorem readUnsigned (h : small.Wider large) (address size : Nat) :
    Refined CleanExit (small.readUnsigned address size) (large.readUnsigned address size) :=
  .bind (h.readBytes address size) fun _ _ => .same _

theorem read (h : small.Wider large) (table : StructTable) (address : Nat) (type : CType) :
    Refined CleanExit (small.read table address type) (large.read table address type) := by
  cases type with
  | int | float | char | pointer _ => exact .bind (h.readUnsigned address _) fun _ _ => .same _
  | array _ _ | struct _ =>
    refine .bind (.same _) fun size _ => ?_
    exact .bind (h.checkReadable address size) fun _ _ => .same _
  | void | function => exact .same _

/-- A byte that is found is found at the same place in front of more bytes. -/
theorem find? {bytes bytes' : Bytes} (h : Starts bytes bytes') {byte : UInt8} {start stop : Nat}
    (found : bytes.find? byte start = some stop) : bytes'.find? byte start = some stop := by
  obtain ⟨lower, here, first⟩ := Bytes.find?_eq_some_iff.mp found
  obtain ⟨inside, -⟩ := Bytes.getElem?_eq_some_iff.mp here
  refine Bytes.find?_eq_some_iff.mpr ⟨lower, ?_, fun i lower' upper' => ?_⟩
  · rwa [h.2 stop inside]
  · rw [h.2 i (Nat.lt_trans upper' inside)]
    exact first i lower' upper'

theorem textStop (h : small.Wider large) (address : Nat) :
    Refined CleanExit (small.textStop address) (large.textStop address) := by
  refine .bind (h.checkReadable address 1) fun _ _ => ?_
  cases found : small.bytes.find? 0 address with
  | none => exact .unseen _ nofun
  | some stop =>
    simp only [find? h.starts found]
    exact .same _

theorem textLength (h : small.Wider large) (address : Nat) :
    Refined CleanExit (small.textLength address) (large.textLength address) :=
  .bind (h.textStop address) fun _ _ => .same _

theorem textBytes (h : small.Wider large) (address : Nat) :
    Refined CleanExit (small.textBytes address) (large.textBytes address) := by
  refine .bind (h.textStop address) fun stop found => ?_
  obtain ⟨-, search⟩ := textStop_eq_ok.mp found
  obtain ⟨lower, zero, -⟩ := Bytes.find?_eq_some_iff.mp search
  obtain ⟨below, -⟩ := Bytes.getElem?_eq_some_iff.mp zero
  have inside : address + (stop - address) ≤ small.size := by
    rw [Nat.add_sub_cancel' lower]
    exact Nat.le_of_lt below
  rw [bytesAt_congr (h.sameBytes inside)]
  exact .same _

theorem readText (h : small.Wider large) (address : Nat) :
    Refined CleanExit (small.readText address) (large.readText address) :=
  .bind (h.textBytes address) fun _ _ => .same _

theorem valueText (h : small.Wider large) (v : Value) :
    Refined CleanExit (v.readText small) (v.readText large) :=
  .bind (.bind (.same _) fun address _ => h.textBytes address) fun _ _ => .same _

theorem valueLength (h : small.Wider large) (v : Value) :
    Refined CleanExit (v.textLength small) (v.textLength large) :=
  .bind (.same _) fun address _ => h.textLength address

/-- Only the directive for texts looks at memory. -/
theorem directiveText (h : small.Wider large) (precision : Option Nat) (letter : Char)
    (argument : Value) :
    Refined CleanExit (Print.directiveText small precision letter argument)
      (Print.directiveText large precision letter argument) := by
  by_cases text : letter = 's'
  · subst text
    simp only [Print.directiveText]
    split
    · exact h.readText _
    · exact .same _
  · unfold Print.directiveText
    split <;> first | exact .same _ | exact absurd rfl text

theorem render (h : small.Wider large) : ∀ pieces arguments,
    Refined CleanExit (Print.render small pieces arguments) (Print.render large pieces arguments)
  | [], _ | .directive _ _ :: _, [] => .same _
  | .char _ :: rest, arguments => .bind (render h rest arguments) fun _ _ => .same _
  | .directive precision letter :: rest, argument :: arguments =>
    .bind (h.directiveText precision letter argument) fun _ _ =>
      .bind (render h rest arguments) fun _ _ => .same _

theorem deref (h : small.Wider large) (table : StructTable) (v : Value) :
    Refined CleanExit (v.deref table small) (v.deref table large) :=
  .bind (.same _) fun type _ => h.read table _ type

theorem member (h : small.Wider large) (table : StructTable) (v : Value) (name : String) :
    Refined CleanExit (v.member table name small) (v.member table name large) := by
  unfold Value.member
  split
  · exact .bind (.same _) fun field _ => h.read table _ field.type
  · exact .same _

/-! ## The allocator -/

theorem readWord (h : small.Wider large) (address : Nat) :
    Refined CleanExit (small.readWord address) (large.readWord address) := by
  refine .bind (h.checkBounds address wordSize) fun _ checked => ?_
  rw [bytesAt_congr (h.sameBytes (inside_of_checkBounds checked))]
  exact .same _

theorem blockAt (h : small.Wider large) (tag : Nat) :
    Refined CleanExit (small.blockAt tag) (large.blockAt tag) := by
  unfold Image.blockAt
  rw [h.heapBottom, h.stackBottom]
  split
  · exact .same _
  · exact .bind (.same _) fun second _ => .bind (h.readWord second) fun _ _ => .same _

/-- A walk over the smaller image passes the same blocks, or it ends early. -/
theorem walkFrom (h : small.Wider large) (left tag : Nat) :
    small.walkFrom left tag = large.walkFrom left tag ∨
      (small.walkFrom left tag).blocks <+: (large.walkFrom left tag).blocks ∧
        ∃ fault, (small.walkFrom left tag).fault = some fault ∧ ¬ CleanExit fault := by
  induction left generalizing tag with
  | zero => exact .inl rfl
  | succ left ih =>
    rw [Image.walkFrom, Image.walkFrom, h.stackBottom]
    split
    · exact .inl rfl
    · have block := h.blockAt tag
      generalize small.blockAt tag = found, large.blockAt tag = found' at block
      cases block with
      | same =>
        cases found with
        | error fault => exact .inl rfl
        | ok block =>
          rcases ih block.stop with same | ⟨shorter, fault, ended, unseen⟩
          · left
            simp only [same]
          · exact .inr ⟨(List.prefix_cons_inj block).mpr shorter, fault, ended, unseen⟩
      | unseen _ unseen => exact .inr ⟨List.nil_prefix, _, rfl, unseen⟩

theorem firstFit (h : small.Wider large) (size : Nat) :
    Refined CleanExit (small.firstFit size) (large.firstFit size) := by
  unfold Image.firstFit Image.walk
  rw [h.heapBottom, h.stackBottom]
  have walks := h.walkFrom (small.stackBottom - small.heapBottom) small.heapBottom
  generalize small.walkFrom _ _ = walk, large.walkFrom _ _ = walk' at walks
  rcases walks with rfl | ⟨shorter, fault, ended, unseen⟩
  · exact .same _
  · cases found : walk.blocks.find? (·.fits size) with
    | some block =>
      simp only [found, shorter.find?_eq_some found]
      exact .same _
    | none =>
      simp only [found, ended]
      exact .unseen _ unseen

theorem releasePlan (h : small.Wider large) (address : Nat) :
    Refined CleanExit (small.releasePlan address) (large.releasePlan address) := by
  unfold Image.releasePlan
  rw [h.isLive, h.heapBottom]
  split
  · exact .same _
  · refine .bind (h.blockAt _) fun block _ => .bind (h.readWord _) fun link _ => ?_
    split
    · exact .same _
    · split
      · exact .same _
      · exact .bind (h.blockAt link) fun before _ => .same _

theorem elementAt (h : small.Wider large) (table : StructTable) (array position : Value) :
    Refined CleanExit (array.elementAt table position small)
      (array.elementAt table position large) :=
  .bind (.same _) fun place _ => h.deref table place

/-- Every question of an operation has the same answer in the larger image. -/
theorem question (h : small.Wider large) {α : Type} {question : Image → Except Fault α}
    (asked : Question question) : Refined CleanExit (question small) (question large) := by
  cases asked with
  | deref table v => exact h.deref table v
  | member table v field => exact h.member table v field
  | arrow table v field => exact .bind (h.deref table v) fun object _ => h.member table object field
  | blockAt tag => exact h.blockAt tag
  | firstFit size => exact h.firstFit size
  | releasePlan address => exact h.releasePlan address

end Wider

/-! ## Operations -/

open Step

variable {α : Type}

theorem follows_query {question : Image → Except Fault α}
    (h : ∀ {small large : Image}, small.Wider large →
      Refined CleanExit (question small) (question large)) :
    Follows Wider CleanExit (query question) (query question) :=
  fun _ _ wider => .of_refined wider (h wider)

theorem follows_atStackBottom {f : Nat → Store α}
    (h : ∀ bottom, Follows Wider CleanExit (f bottom) (f bottom)) :
    Follows Wider CleanExit (get >>= fun image => f image.stackBottom)
      (get >>= fun image => f image.stackBottom) := by
  intro small large wider
  show Followed Wider CleanExit (f small.stackBottom small) (f large.stackBottom large)
  rw [wider.stackBottom]
  exact h small.stackBottom small large wider

/-- A change of bytes behind a check. -/
theorem follows_checked {step : Store Unit} {check : Image → Except Fault Unit}
    {change : Image → Image}
    (is : ∀ image, step image =
      match check image with
      | .ok _ => .ok () (change image)
      | .error fault => .error fault image)
    (h : ∀ {small large : Image}, small.Wider large →
      Refined CleanExit (check small) (check large))
    (keeps : ∀ {small large : Image}, small.Wider large → (change small).Wider (change large)) :
    Follows Wider CleanExit step step := by
  intro small large wider
  have refined := h wider
  rw [is, is]
  generalize check small = found, check large = found' at refined
  cases refined with
  | same =>
    cases found with
    | ok _ => exact .ok () (keeps wider)
    | error fault => exact .error fault wider
  | unseen _ unseen => exact .unseen _ unseen

/-- A new literal goes to the same place. -/
theorem follows_intern (text : List Char) :
    Follows Wider CleanExit (intern text) (intern text) := by
  intro small large wider
  obtain ⟨bytes, starts, rfl⟩ := id wider
  have available : readOnlyAvailable { small with bytes := bytes } = small.readOnlyAvailable := rfl
  have known (body : List Char) :
      literalAddress? { small with bytes := bytes } body = small.literalAddress? body := rfl
  simp only [intern, known, available]
  split
  · exact .ok _ wider
  · split
    · exact .error _ wider
    · exact .ok _ ⟨_, starts.putFrom _ _, rfl⟩

/-- Operations on the smaller image are followed by those on the larger one. -/
def widening : StoreRules where
  holds step := Follows Wider CleanExit step step
  answer := follows_pure
  fault _ := follows_throw _
  sequence := follows_bind
  ask asked := follows_query fun wider => wider.question asked
  atStackBottom := follows_atStackBottom
  write _ _ := follows_checked (fun _ => rfl) (·.checkWritable _ _) (·.put _ _)
  fill _ _ _ := follows_checked (fun _ => rfl) (·.checkWritable _ _) (·.filled _ _ _)
  writeWord _ _ := follows_checked (fun _ => rfl) (·.checkBounds _ _) (·.put _ _)
  intern := follows_intern
  addLive _ := follows_modify fun _ _ ⟨bytes, starts, same⟩ => ⟨bytes, starts, by rw [same]⟩
  removeLive _ := follows_modify fun _ _ ⟨bytes, starts, same⟩ => ⟨bytes, starts, by rw [same]⟩

/-- More room for the stack, and nothing else, makes an image wider. -/
theorem wider_blank (regions : Regions) {stackSize : Nat} (le : regions.stackSize ≤ stackSize) :
    (blank regions).Wider (blank { regions with stackSize := stackSize }) := by
  unfold blank
  refine Wider.put (Wider.put ⟨_, ⟨?_, fun i inside => ?_⟩, rfl⟩ _ _) _ _
  · simp only [Bytes.size_replicate]
    omega
  · simp only [Bytes.size_replicate] at inside
    have inside' : i < regions.readOnlySize + regions.heapSize + stackSize := by omega
    rw [Bytes.getElem?_replicate inside, Bytes.getElem?_replicate inside']

end Image

end FlatC
