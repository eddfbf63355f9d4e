import FlatC.Proofs.Heap.Confined
import FlatC.Proofs.Heap.Reachable
import FlatC.Proofs.Number.Whole

/-!
# Text literals stay where they are

The read-only region is written by one operation alone, which puts a new literal behind all others.
Programs are kept out of it by a check, and the allocator by the bottom of the heap.  So a literal
has one place and one text for a whole run, whatever a program does to the rest of memory.

* `Image.LiteralsIntact` is what holds of the literals of an image;
* `Image.LiteralsIntact.after` and `Image.literalAddress?_after` are about one operation, and
  `Image.LiteralsIntact.afterAll` and `Image.literalAddress?_afterAll` about a run of them;
* `Image.literals_keep_place_and_text` says it of what a program is told.
-/

namespace FlatC

/-- A pointer holds every address there is. -/
theorem Value.toAddress_pointer {address : Nat} (h : address < wordRange) (target : CType) :
    (Value.pointerTo address (.pointer target)).toAddress = address := by
  have wide : wordRange ≤ twoPow 53 := by decide
  have isWhole : (Binary64.ofNat address).IsWhole address := Binary64.isWhole_ofNat (by omega)
  have fitted : (CType.pointer target).fit (.ofNat address) = .ofNat address := by
    refine isWhole.wrap_eq ?_
    simp only [Bool.false_eq_true, if_false]
    exact Int.emod_eq_of_lt (by omega) (by omega)
  have read : (Binary64.ofNat address).toInt64 = address := by
    simp only [wordRange] at h
    refine isWhole.toInt64 ?_ ?_ <;> simp only [longTop] <;> omega
  show (Binary64.toInt64 ((CType.pointer target).fit (.ofNat address)) % wordRange).toNat = address
  rw [fitted, read, Int.emod_eq_of_lt (by omega) (by omega), Int.toNat_natCast]

theorem Value.toAddress_pointerTo {address : Nat} (h : address < wordRange) :
    (Value.pointerTo address .charPointer).toAddress = address :=
  Value.toAddress_pointer h .char

namespace Image

variable {config : Regions} {image image' : Image} {body body' : List Char} {address address' : Nat}

/-! ## Literals in place -/

/-- A literal lies in the used part of the read-only region: its text, and a zero behind it. -/
structure Placed (image : Image) (body : List Char) (address : Nat) : Prop where
  guard : nullPage ≤ address
  below : address + body.length + 1 ≤ image.readOnlyTop
  bytes : image.bytesAt address (body.length + 1) = Text.encode body ++ [0]

/-- All literals of the image are in place, and no two of them overlap. -/
structure LiteralsIntact (image : Image) : Prop where
  guard : nullPage ≤ image.readOnlyTop
  readOnly : image.readOnlyTop ≤ image.heapBottom
  inside : image.heapBottom ≤ image.size
  addressable : image.size < wordRange
  placed : ∀ literal ∈ image.literals, image.Placed literal.1 literal.2
  apart : ∀ literal ∈ image.literals, ∀ other ∈ image.literals, literal.1 ≠ other.1 →
    literal.2 + literal.1.length + 1 ≤ other.2 ∨ other.2 + other.1.length + 1 ≤ literal.2

theorem mem_of_literalAddress? (h : image.literalAddress? body = some address) :
    (body, address) ∈ image.literals := by
  obtain ⟨before, after, split, -⟩ := List.lookup_eq_some_iff.mp h
  rw [split]
  simp

theorem literalsIntact_blank (valid : layoutFault? config = none) :
    LiteralsIntact (blank config) := by
  obtain ⟨guard, -, -, space⟩ := layoutFault?_eq_none valid
  have total : (blank config).size =
      config.readOnlySize + config.heapSize + config.stackSize := by
    rw [blank, size_put, size_put]
    simp [size]
  have none : (blank config).literals = [] := rfl
  refine ⟨Nat.le_refl _, guard, ?_, ?_, ?_, ?_⟩
  · rw [total]
    exact Nat.le_trans (Nat.le_add_right ..) (Nat.le_add_right ..)
  · rwa [total]
  · simp [none]
  · simp [none]

/-! ## One operation -/

/-- Every operation but the one for literals leaves all alone that is below the heap. -/
theorem sameBelow_after {action : Action} (other : ∀ text, action ≠ .intern text) :
    SameBelow image.heapBottom image (action.after image) := by
  cases action with
  | allocate size =>
    have moved := confined_allocate size image
    rwa [← Store.after_eq_left] at moved
  | release address =>
    have moved := confined_release address image
    rwa [← Store.after_eq_left] at moved
  | intern text => exact absurd rfl (other text)
  | write address data => exact (image.write_written address data).sameBelow
  | fill address size byte => exact (image.fill_written address size byte).sameBelow
  | store address value => exact (image.store_written address value).sameBelow
  | writeText address text => exact (image.writeText_written address text).sameBelow

namespace LiteralsIntact

theorem of_sameBelow (h : image.LiteralsIntact) (same : SameBelow image.heapBottom image image') :
    image'.LiteralsIntact := by
  obtain ⟨guard, readOnly, inside, addressable, placed, apart⟩ := h
  obtain ⟨size, heapBottom, readOnlyTop, literals, bytes⟩ := same
  refine ⟨?_, ?_, ?_, ?_, fun literal mem => ?_, ?_⟩
  · rwa [readOnlyTop]
  · rwa [readOnlyTop, heapBottom]
  · rwa [heapBottom, size]
  · rwa [size]
  · rw [literals] at mem
    obtain ⟨guard', below, text⟩ := placed literal mem
    refine ⟨guard', by rwa [readOnlyTop], ?_⟩
    rw [bytesAt_congr (bytes.mono (Nat.zero_le _) (by omega)), text]
  · rwa [literals]

/-- A new literal goes behind all others. -/
theorem placeLiteral (h : image.LiteralsIntact) (room : body.length + 1 ≤ image.readOnlyAvailable) :
    (image.placeLiteral body).LiteralsIntact := by
  obtain ⟨guard, readOnly, inside, addressable, placed, apart⟩ := h
  have length : (Text.encode body ++ [0]).length = body.length + 1 := by simp
  have room : image.readOnlyTop + (body.length + 1) ≤ image.heapBottom := by
    simp only [readOnlyAvailable] at room
    omega
  have total : (image.placeLiteral body).size = image.size := size_put ..
  have top : (image.placeLiteral body).readOnlyTop = image.readOnlyTop + (body.length + 1) := by
    rw [← length]
    rfl
  have own : (image.placeLiteral body).bytesAt image.readOnlyTop (body.length + 1) =
      Text.encode body ++ [0] := by
    have back : (image.put image.readOnlyTop (Text.encode body ++ [0])).bytesAt image.readOnlyTop
        (Text.encode body ++ [0]).length = Text.encode body ++ [0] :=
      image.bytesAt_put (by rw [length]; omega)
    rwa [length] at back
  refine ⟨?_, ?_, inside.trans_eq total.symm, by rwa [total], ?_, ?_⟩
  · rw [top]
    omega
  · rwa [top]
  · intro literal mem
    rcases List.mem_cons.mp mem with rfl | older
    · exact ⟨guard, by rw [top]; exact Nat.le_refl _, own⟩
    · obtain ⟨guard', below, text⟩ := placed literal older
      have kept : image.SameBytes (image.placeLiteral body) literal.2
          (literal.2 + (literal.1.length + 1)) :=
        image.sameBytes_put (.inl below)
      refine ⟨guard', by rw [top]; omega, ?_⟩
      rw [bytesAt_congr kept, text]
  · intro literal mem other mem' different
    rcases List.mem_cons.mp mem with rfl | older
    · rcases List.mem_cons.mp mem' with rfl | older'
      · exact absurd rfl different
      · exact .inr (placed other older').below
    · rcases List.mem_cons.mp mem' with rfl | older'
      · exact .inl (placed literal older).below
      · exact apart literal older other older' different

/-- No operation disturbs a literal. -/
theorem after (h : image.LiteralsIntact) (action : Action) :
    (action.after image).LiteralsIntact := by
  by_cases interns : ∃ text, action = .intern text
  · obtain ⟨text, rfl⟩ := interns
    rcases image.after_intern_cases text with same | ⟨-, room, placed⟩
    · simpa only [Action.after, same] using h
    · simpa only [Action.after, placed] using h.placeLiteral room
  · exact h.of_sameBelow (sameBelow_after fun text same => interns ⟨text, same⟩)

end LiteralsIntact

/-- A literal that has a place keeps it. -/
theorem literalAddress?_after (action : Action) (h : image.literalAddress? body = some address) :
    (action.after image).literalAddress? body = some address := by
  by_cases interns : ∃ text, action = .intern text
  · obtain ⟨text, rfl⟩ := interns
    rcases image.after_intern_cases text with same | ⟨unknown, -, placed⟩
    · simpa only [Action.after, same] using h
    · have other : (body == Text.literalBody text) = false := by
        simp only [beq_eq_false_iff_ne]
        rintro rfl
        rw [unknown] at h
        cases h
      simp only [Action.after, placed]
      show List.lookup body ((Text.literalBody text, image.readOnlyTop) :: image.literals) = _
      rw [List.lookup_cons, other]
      exact h
  · have same : SameBelow image.heapBottom image (action.after image) :=
      sameBelow_after fun text same => interns ⟨text, same⟩
    unfold literalAddress?
    rw [same.literals]
    exact h

/-! ## Runs -/

theorem LiteralsIntact.afterAll (h : image.LiteralsIntact) (actions : List Action) :
    (actions.foldl Action.after image).LiteralsIntact := by
  induction actions generalizing image with
  | nil => exact h
  | cons action rest ih => exact ih (h.after action)

theorem literalAddress?_afterAll (actions : List Action)
    (h : image.literalAddress? body = some address) :
    (actions.foldl Action.after image).literalAddress? body = some address := by
  induction actions generalizing image with
  | nil => exact h
  | cons action rest ih => exact ih (literalAddress?_after action h)

/-! ## Requests -/

/-- A request that succeeds leaves an image in which the literal has the place that it yields. -/
theorem literalAddress?_of_intern {text : List Char} {value : Value}
    (h : intern text image = .ok value image') :
    ∃ address, value = .pointerTo address .charPointer ∧
      image'.literalAddress? (Text.literalBody text) = some address := by
  rcases image.intern_cases text with ⟨address, known, done⟩ | ⟨fault, failed⟩ | ⟨-, -, done⟩
  · rw [done] at h
    cases h
    exact ⟨address, rfl, known⟩
  · rw [failed] at h
    cases h
  · rw [done] at h
    cases h
    exact ⟨image.readOnlyTop, rfl, List.lookup_cons_self⟩

theorem intern_of_literalAddress? {text : List Char}
    (h : image.literalAddress? (Text.literalBody text) = some address) :
    intern text image = .ok (.pointerTo address .charPointer) image := by
  simp only [intern, h]

/-- The image that a request leaves is that of an operation. -/
theorem after_of_intern {text : List Char} {value : Value}
    (h : intern text image = .ok value image') : (Action.intern text).after image = image' := by
  simp only [Action.after, Store.after, h]

/-- **Literals keep their place and their text.**  Take any run of operations from a new image, a
request for a literal that succeeds, and any run after it.  The request was told an address, and
what lies there at the end is the text of the literal and a zero, inside the used part of the
read-only region.  Every later request for the same text is told the same address and changes
nothing, one for another text is told of a range that lies apart, and one that fails changes
nothing. -/
theorem literals_keep_place_and_text {start placed : Image} {text : List Char} {value : Value}
    (created : create config = .ok start) (earlier later : List Action)
    (requested : intern text (earlier.foldl Action.after start) = .ok value placed) :
    let body := Text.literalBody text
    let final := later.foldl Action.after placed
    ∃ address, value = .pointerTo address .charPointer ∧ value.toAddress = address ∧
      4 ≤ address ∧
      final.bytesAt address (body.length + 1) = Text.encode body ++ [0] ∧
      address + body.length + 1 ≤ final.readOnlyTop ∧ final.readOnlyTop ≤ final.heapBottom ∧
      (∀ again, Text.literalBody again = body → intern again final = .ok value final) ∧
      (∀ other value' image', Text.literalBody other ≠ body →
        intern other final = .ok value' image' →
        address + body.length < value'.toAddress ∨
          value'.toAddress + (Text.literalBody other).length < address) ∧
      ∀ other fault image', intern other final = .error fault image' → image' = final := by
  intro body final
  obtain ⟨valid, rfl⟩ := of_create created
  have intact : placed.LiteralsIntact := by
    rw [← after_of_intern requested]
    exact ((literalsIntact_blank valid).afterAll earlier).after _
  have intact : final.LiteralsIntact := intact.afterAll later
  obtain ⟨address, rfl, known⟩ := literalAddress?_of_intern requested
  have known : final.literalAddress? body = some address := literalAddress?_afterAll later known
  have inPlace : final.Placed body address := intact.placed _ (mem_of_literalAddress? known)
  have top := intact.readOnly
  have heap := intact.inside
  have space := intact.addressable
  have below := inPlace.below
  refine ⟨address, rfl, Value.toAddress_pointerTo (by omega), inPlace.guard, inPlace.bytes, below,
    top, ?_, ?_, ?_⟩
  · intro again same
    exact intern_of_literalAddress? (by rwa [same])
  · intro other value' image' different told
    -- Whether the other literal is new or not, both are in place once it has been requested.
    have intact' : image'.LiteralsIntact := by
      rw [← after_of_intern told]
      exact intact.after _
    have known' : image'.literalAddress? body = some address := by
      rw [← after_of_intern told]
      exact literalAddress?_after _ known
    obtain ⟨address', rfl, found⟩ := literalAddress?_of_intern told
    have mem' := mem_of_literalAddress? found
    have below' := (intact'.placed _ mem').below
    have top' := intact'.readOnly
    have heap' := intact'.inside
    have space' := intact'.addressable
    have apart := intact'.apart _ (mem_of_literalAddress? known') _ mem' (Ne.symm different)
    rw [Value.toAddress_pointerTo (by omega)]
    exact apart
  · intro other fault image' failed
    rcases final.intern_cases other with ⟨_, -, done⟩ | ⟨_, done⟩ | ⟨-, -, done⟩
    · rw [done] at failed
      cases failed
    · rw [done] at failed
      cases failed
      rfl
    · rw [done] at failed
      cases failed

/-- A run that forges tags for the allocator to follow, then overwrites the whole heap, and asks for
more text than there is room for. -/
def forgery : List Action :=
  [.write 20 [8, 0, 0, 128, 16, 0, 0, 0, 32, 0, 0, 128], .allocate 4, .release 32, .release 24,
    .write 4 [0, 0, 0, 0], .fill 16 40 255, .release 24, .allocate 1,
    .intern ['t', 'o', 'o', ' ', 'l', 'o', 'n', 'g'], .intern ['x']]

/-- A literal behind another one outlives a heap that is overwritten. -/
theorem literal_survives_forgery :
    ∃ start placed, create ⟨16, 40, 8, .reclaim⟩ = .ok start ∧
      intern ['h', 'i'] ([.intern ['"', 'n', 'o', '"'], .allocate 4].foldl Action.after start) =
        .ok (.pointerTo 7 .charPointer) placed ∧
      let final := forgery.foldl Action.after placed
      final.blocks = [] ∧ final.bytesAt 7 3 = [104, 105, 0] ∧
        intern ['"', 'h', 'i', '"'] final = .ok (.pointerTo 7 .charPointer) final := by
  have created : create ⟨16, 40, 8, .reclaim⟩ = .ok (blank ⟨16, 40, 8, .reclaim⟩) := rfl
  let earlier : Image := [.intern ['"', 'n', 'o', '"'], .allocate 4].foldl Action.after
    (blank ⟨16, 40, 8, .reclaim⟩)
  have unknown : earlier.literalAddress? ['h', 'i'] = none := by decide +kernel
  have room : ¬ earlier.readOnlyAvailable < 3 := by decide +kernel
  have top : earlier.readOnlyTop = 7 := by decide +kernel
  have requested : intern ['h', 'i'] earlier =
      .ok (.pointerTo 7 .charPointer) (earlier.placeLiteral ['h', 'i']) := by
    have body : Text.literalBody ['h', 'i'] = ['h', 'i'] := by decide
    simp only [intern, body, unknown, List.length_cons, List.length_nil, if_neg room, top]
  refine ⟨_, _, created, requested, ?_⟩
  intro final
  obtain ⟨address, -, told, -, bytes, -, -, again, -, -⟩ :=
    literals_keep_place_and_text created _ forgery requested
  have place : 7 = address := (Value.toAddress_pointerTo (by decide)).symm.trans told
  subst place
  exact ⟨by decide +kernel, bytes, again _ (by decide)⟩

end Image

end FlatC
