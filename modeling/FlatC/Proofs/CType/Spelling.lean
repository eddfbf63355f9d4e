import FlatC.Program.Basic
import Mathlib.Data.List.Forall2
import Mathlib.Data.List.Induction

/-!
# The spelling of types

Types are compared by their structure, and the signatures of functions by how their types are
spelled.  The two come to the same, because a spelling can be read back.  It is read from its end:
a star there is a pointer, a bracket is the last dimension of an array, and anything else is a type
without either.  In a signature the parenthesis and the commas stand out, since no spelling contains
one.

* `CType.Built` is the types that a program can be built from, and `CType.Canonical` what they look
  like;
* `CType.same_iff_spelling_eq` says that types are the same if they are spelled alike;
* `FunctionDef.signature_eq_iff` says so of the types in a signature.
-/

namespace FlatC

/-! ## Lists that end or begin at a mark -/

theorem append_cons_inj {α : Type} {mark : α} {front front' back back' : List α}
    (free : mark ∉ front) (free' : mark ∉ front') :
    front ++ mark :: back = front' ++ mark :: back' ↔ front = front' ∧ back = back' := by
  induction front generalizing front' with
  | nil =>
    cases front' with
    | nil => simp
    | cons a rest =>
      have different : mark ≠ a := fun same => free' (same ▸ List.mem_cons_self)
      simp [different]
  | cons a rest ih =>
    cases front' with
    | nil =>
      have different : a ≠ mark := fun same => free (same ▸ List.mem_cons_self)
      simp [different]
    | cons b rest' =>
      have later : mark ∉ rest := fun mem => free (List.mem_cons_of_mem a mem)
      have later' : mark ∉ rest' := fun mem => free' (List.mem_cons_of_mem b mem)
      simp [ih later later', and_assoc]

theorem append_cons_inj_right {α : Type} {mark : α} {front front' back back' : List α}
    (free : mark ∉ back) (free' : mark ∉ back') :
    front ++ mark :: back = front' ++ mark :: back' ↔ front = front' ∧ back = back' := by
  have reversed (p q : List α) : (p ++ mark :: q).reverse = q.reverse ++ mark :: p.reverse := by
    simp
  rw [← List.reverse_inj, reversed, reversed, append_cons_inj]
  · simp [and_comm]
  · simpa using free
  · simpa using free'

/-! ## Identifiers -/

/-- A letter, a digit or an underscore. -/
def isWordChar (c : Char) : Bool :=
  c.isAlphanum || c == '_'

/-- An identifier: letters, digits and underscores, with no digit in front. -/
def IsIdentifier (name : String) : Prop :=
  ∃ first rest, name.toList = first :: rest ∧ (first.isAlpha || first == '_') = true ∧
    ∀ c ∈ rest, isWordChar c = true

namespace CType

variable {s t element : CType} {dims dims' : List Nat}

/-- The types that a program can be built from: an array has a dimension, and the tag of a struct is
an identifier. -/
inductive Built : CType → Prop where
  | int : Built .int
  | float : Built .float
  | char : Built .char
  | void : Built .void
  | function : Built .function
  | pointer {target : CType} (built : Built target) : Built (.pointer target)
  | arrayOf {element : CType} (dims : List Nat) (built : Built element) (some : dims ≠ []) :
      Built (element.arrayOf dims)
  | struct {ref : StructRef} (tag : IsIdentifier ref.tag) : Built (.struct ref)

/-- What such types look like: no array has an array for an element. -/
def Canonical : CType → Prop
  | .pointer target => target.Canonical
  | .array element dims => element.Canonical ∧ element.isArray = false ∧ dims ≠ []
  | .struct ref => IsIdentifier ref.tag
  | _ => True

theorem Canonical.arrayOf (h : element.Canonical) (some : dims ≠ []) :
    (element.arrayOf dims).Canonical := by
  cases element with
  | array inner innerDims =>
    obtain ⟨canonical, flat, -⟩ := h
    exact ⟨canonical, flat, List.append_ne_nil_of_left_ne_nil some innerDims⟩
  | int | float | char | void | function | pointer _ | struct _ => exact ⟨h, rfl, some⟩

theorem Built.canonical (h : t.Built) : t.Canonical := by
  induction h with
  | int | float | char | void | function => trivial
  | pointer _ ih => exact ih
  | arrayOf dims _ some ih => exact ih.arrayOf some
  | struct tag => exact tag

/-! ## The characters of a spelling -/

/-- How a dimension is written. -/
def bracketed (dim : Nat) : List Char :=
  '[' :: (Decimal.digits dim ++ [']'])

theorem toList_spelling_pointer (target : CType) :
    (pointer target).spelling.toList = target.spelling.toList ++ ['*'] := by
  simp [spelling]

theorem toList_spelling_array (element : CType) (dims : List Nat) :
    (array element dims).spelling.toList =
      element.spelling.toList ++ dims.flatMap bracketed := by
  simp only [spelling, String.toList_append, String.toList_join, List.flatMap_map,
    String.toList_ofList, List.append_cancel_left_eq]
  refine List.flatMap_congr fun dim _ => ?_
  simp [bracketed]

theorem bracketed_char {dim : Nat} {c : Char} (mem : c ∈ bracketed dim) :
    c.isDigit = true ∨ c = '[' ∨ c = ']' := by
  rcases List.mem_cons.mp mem with rfl | mem
  · exact .inr (.inl rfl)
  · rcases List.mem_append.mp mem with digit | last
    · exact .inl (Nat.isDigit_of_mem_toDigits (by decide) (by decide) digit)
    · exact .inr (.inr (List.mem_singleton.mp last))

/-- A text that passes for words and spaces consists of them. -/
theorem plain_char_of_all {text : List Char} {c : Char}
    (plain : (text.all fun c => isWordChar c || c == ' ') = true) (mem : c ∈ text) :
    isWordChar c = true ∨ c = ' ' := by
  have passes := List.all_eq_true.mp plain c mem
  rw [Bool.or_eq_true, beq_iff_eq] at passes
  exact passes

/-- A type that is neither a pointer nor an array is spelled with word characters and a space. -/
theorem Canonical.plain_char (h : t.Canonical) (plain : t.isPointerLike = false) {c : Char}
    (mem : c ∈ t.spelling.toList) : isWordChar c = true ∨ c = ' ' := by
  cases t with
  | int | float | char | void | function => exact plain_char_of_all (by decide) mem
  | struct ref =>
    obtain ⟨first, rest, tag, letter, others⟩ := h
    rw [spelling, String.toList_append, tag] at mem
    rcases List.mem_append.mp mem with keyword | mem
    · exact plain_char_of_all (by decide) keyword
    · rcases List.mem_cons.mp mem with rfl | later
      · left
        simp only [isWordChar, Char.isAlphanum, Bool.or_eq_true] at letter ⊢
        tauto
      · exact .inl (others c later)
  | pointer _ | array _ _ => cases plain

/-- No spelling contains a parenthesis or a comma. -/
theorem Canonical.unmarked (h : t.Canonical) {mark : Char} (separator : mark = '(' ∨ mark = ',') :
    mark ∉ t.spelling.toList := by
  induction t with
  | pointer target ih =>
    rw [toList_spelling_pointer]
    intro mem
    rcases List.mem_append.mp mem with inner | star
    · exact ih h inner
    · rcases separator with rfl | rfl
      · exact absurd star (by decide)
      · exact absurd star (by decide)
  | array element dims ih =>
    rw [toList_spelling_array]
    intro mem
    rcases List.mem_append.mp mem with inner | behind
    · exact ih h.1 inner
    · obtain ⟨dim, -, among⟩ := List.mem_flatMap.mp behind
      rcases separator with rfl | rfl
      · exact absurd (bracketed_char among) (by decide)
      · exact absurd (bracketed_char among) (by decide)
  | int | float | char | void | function | struct _ =>
    intro mem
    rcases separator with rfl | rfl
    · exact absurd (h.plain_char rfl mem) (by decide)
    · exact absurd (h.plain_char rfl mem) (by decide)

/-! ## Reading a spelling from its end -/

theorem getLast?_spelling_pointer (target : CType) :
    (pointer target).spelling.toList.getLast? = some '*' := by
  rw [toList_spelling_pointer, List.getLast?_concat]

/-- The last dimension, taken off. -/
theorem flatMap_bracketed_concat (front : List Char) (init : List Nat) (dim : Nat) :
    front ++ (init ++ [dim]).flatMap bracketed =
      (front ++ init.flatMap bracketed) ++ '[' :: Decimal.digits dim ++ [']'] := by
  simp [bracketed]

theorem getLast?_brackets (front : List Char) (init : List Nat) (dim : Nat) :
    (front ++ (init ++ [dim]).flatMap bracketed).getLast? = some ']' := by
  rw [flatMap_bracketed_concat, List.getLast?_concat]

/-- A type that is no array is not spelled with a bracket at its end. -/
theorem Canonical.getLast?_of_flat (h : t.Canonical) (flat : t.isArray = false) :
    t.spelling.toList.getLast? ≠ some ']' := by
  intro last
  cases t with
  | pointer target =>
    rw [getLast?_spelling_pointer] at last
    exact absurd last (by decide)
  | int | float | char | void | function | struct _ =>
    exact absurd (h.plain_char rfl (List.mem_of_getLast? last)) (by decide)
  | array _ _ => cases flat

theorem Canonical.getLast?_array (h : (array element dims).Canonical) :
    (array element dims).spelling.toList.getLast? = some ']' := by
  obtain ⟨init, dim, rfl⟩ := (List.eq_nil_or_concat' dims).resolve_left h.2.2
  rw [toList_spelling_array]
  exact getLast?_brackets element.spelling.toList init dim

/-- Only a pointer is spelled with a star at its end. -/
theorem Canonical.getLast?_of_not_pointer (h : t.Canonical) (other : t.isPointer = false) :
    t.spelling.toList.getLast? ≠ some '*' := by
  intro last
  cases t with
  | array element dims =>
    rw [h.getLast?_array] at last
    exact absurd last (by decide)
  | int | float | char | void | function | struct _ =>
    exact absurd (h.plain_char rfl (List.mem_of_getLast? last)) (by decide)
  | pointer _ => cases other

theorem digits_injective {n m : Nat} (same : Decimal.digits n = Decimal.digits m) : n = m := by
  have back := congrArg (Nat.ofDigitChars 10 · 0) same
  simpa only [Decimal.digits, Nat.ofDigitChars_ten_toDigits] using back

theorem bracket_notMem_digits (n : Nat) : '[' ∉ Decimal.digits n := by
  intro mem
  exact absurd (Nat.isDigit_of_mem_toDigits (by decide) (by decide) mem) (by decide)

/-- Dimensions are read from the last one on, until there is no bracket any more. -/
theorem brackets_inj {front front' : List Char} (ends : front.getLast? ≠ some ']')
    (ends' : front'.getLast? ≠ some ']')
    (same : front ++ dims.flatMap bracketed = front' ++ dims'.flatMap bracketed) :
    front = front' ∧ dims = dims' := by
  induction dims using List.reverseRecOn generalizing dims' with
  | nil =>
    rcases List.eq_nil_or_concat' dims' with rfl | ⟨init', dim', rfl⟩
    · simpa using same
    · simp only [List.flatMap_nil, List.append_nil] at same
      rw [same] at ends
      exact absurd (getLast?_brackets front' init' dim') ends
  | append_singleton init dim ih =>
    rcases List.eq_nil_or_concat' dims' with rfl | ⟨init', dim', rfl⟩
    · simp only [List.flatMap_nil, List.append_nil] at same
      rw [← same] at ends'
      exact absurd (getLast?_brackets front init dim) ends'
    · rw [flatMap_bracketed_concat, flatMap_bracketed_concat] at same
      have inner := List.append_cancel_right same
      rw [append_cons_inj_right (bracket_notMem_digits dim) (bracket_notMem_digits dim')] at inner
      obtain ⟨rfl, rfl⟩ := ih inner.1
      obtain rfl := digits_injective inner.2
      exact ⟨rfl, rfl⟩

/-! ## Types and their spellings -/

/-- Types that are the same are spelled alike. -/
theorem spelling_eq_of_same (h : s.same t = true) : s.spelling = t.spelling := by
  induction s generalizing t with
  | pointer a ih =>
    cases t with
    | pointer b => rw [spelling, spelling, ih h]
    | _ => cases h
  | array a dims ih =>
    cases t with
    | array b dims' =>
      simp only [same, Bool.and_eq_true, beq_iff_eq] at h
      rw [spelling, spelling, ih h.1, h.2]
    | _ => cases h
  | struct a =>
    cases t with
    | struct b =>
      have tags : a.tag = b.tag := by simpa [same] using h
      rw [spelling, spelling, tags]
    | _ => cases h
  | int | float | char | void | function =>
    cases t with
    | int | float | char | void | function | struct _ => first | rfl | cases h
    | pointer _ | array _ _ => cases h

/-- Types that are neither pointers nor arrays are told apart by their spellings. -/
theorem same_of_plain (plain : s.isPointerLike = false) (plain' : t.isPointerLike = false)
    (alike : s.spelling = t.spelling) : s.same t = true := by
  cases s with
  | int | float | char | void | function | struct _ =>
    cases t with
    | int | float | char | void | function | struct _ =>
      simp_all [spelling, same, String.ext_iff]
    | pointer _ | array _ _ => cases plain'
  | pointer _ | array _ _ => cases plain

/-- Types that are spelled alike are the same. -/
theorem Canonical.same_of_spelling_eq (hs : s.Canonical) (ht : t.Canonical)
    (alike : s.spelling = t.spelling) : s.same t = true := by
  have chars : s.spelling.toList = t.spelling.toList := congrArg String.toList alike
  induction s generalizing t with
  | pointer a ih =>
    cases t with
    | pointer b =>
      rw [toList_spelling_pointer, toList_spelling_pointer] at chars
      have inner := List.append_cancel_right chars
      exact ih hs ht (String.toList_injective inner) inner
    | int | float | char | void | function | array _ _ | struct _ =>
      have star := getLast?_spelling_pointer a
      rw [chars] at star
      exact absurd star (ht.getLast?_of_not_pointer rfl)
  | array a dims ih =>
    cases t with
    | array b dims' =>
      obtain ⟨canonical, flat, -⟩ := hs
      obtain ⟨canonical', flat', -⟩ := ht
      rw [toList_spelling_array, toList_spelling_array] at chars
      obtain ⟨inner, rfl⟩ := brackets_inj (canonical.getLast?_of_flat flat)
        (canonical'.getLast?_of_flat flat') chars
      have elements := ih canonical canonical' (String.toList_injective inner) inner
      simp only [same, elements, Bool.true_and, beq_self_eq_true]
    | int | float | char | void | function | pointer _ | struct _ =>
      have bracket := hs.getLast?_array
      rw [chars] at bracket
      exact absurd bracket (ht.getLast?_of_flat rfl)
  | int | float | char | void | function | struct _ =>
    cases t with
    | pointer b =>
      have star := getLast?_spelling_pointer b
      rw [← chars] at star
      exact absurd star (hs.getLast?_of_not_pointer rfl)
    | array b dims =>
      have bracket := ht.getLast?_array
      rw [← chars] at bracket
      exact absurd bracket (hs.getLast?_of_flat rfl)
    | int | float | char | void | function | struct _ => exact same_of_plain rfl rfl alike

theorem Canonical.same_iff_spelling_eq (hs : s.Canonical) (ht : t.Canonical) :
    s.same t = true ↔ s.spelling = t.spelling := by
  constructor
  · exact spelling_eq_of_same
  · exact hs.same_of_spelling_eq ht

theorem Canonical.spelling_ne_nil (h : t.Canonical) : t.spelling.toList ≠ [] := by
  intro empty
  cases t with
  | int | float | char | void | function => exact absurd empty (by decide)
  | pointer target =>
    have star := getLast?_spelling_pointer target
    rw [empty] at star
    cases star
  | array element dims =>
    have bracket := h.getLast?_array
    rw [empty] at bracket
    cases bracket
  | struct ref => simp [spelling] at empty

end CType

/-! ## Signatures -/

namespace FunctionDef

variable {f g : FunctionDef}

/-- The types of a function can be built. -/
structure Built (function : FunctionDef) : Prop where
  returnType : function.returnType.Built
  params : ∀ param ∈ function.params, param.type.Built

/-- The functions return the same type and take the same types. -/
def SameTypes (f g : FunctionDef) : Prop :=
  f.returnType.same g.returnType = true ∧
    List.Forall₂ (fun p q => p.type.same q.type = true) f.params g.params

/-- How the parameters are spelled. -/
def spellings (function : FunctionDef) : List (List Char) :=
  function.params.map fun param => param.type.spelling.toList

theorem toList_signature (function : FunctionDef) :
    function.signature.toList = function.returnType.spelling.toList ++
      '(' :: ([','].intercalate function.spellings ++ [')']) := by
  simp [signature, signatureText, spellings, Function.comp_def]

/-- Texts without a comma are told apart by commas between them. -/
theorem intercalate_inj {texts texts' : List (List Char)} (free : ∀ text ∈ texts, ',' ∉ text)
    (free' : ∀ text ∈ texts', ',' ∉ text) (some : [] ∉ texts) (some' : [] ∉ texts')
    (same : [','].intercalate texts = [','].intercalate texts') : texts = texts' := by
  -- Nothing at all is split into one empty text, which none of them is.
  have alone {others : List (List Char)} (free : ∀ text ∈ others, ',' ∉ text)
      (some : [] ∉ others) (nothing : [','].intercalate others = []) : others = [] := by
    by_contra nonempty
    have split := List.splitOn_intercalate ',' free nonempty
    rw [nothing] at split
    exact some (split ▸ List.mem_singleton.mpr rfl)
  by_cases empty : texts = []
  · rw [empty] at same
    rw [empty, alone free' some' same.symm]
  by_cases empty' : texts' = []
  · rw [empty'] at same
    rw [empty', alone free some same]
  rw [← List.splitOn_intercalate ',' free empty, same, List.splitOn_intercalate ',' free' empty']

theorem Built.comma_notMem (h : f.Built) {text : List Char} (mem : text ∈ f.spellings) :
    ',' ∉ text := by
  obtain ⟨param, among, rfl⟩ := List.mem_map.mp mem
  exact (h.params param among).canonical.unmarked (.inr rfl)

theorem Built.nil_notMem (h : f.Built) : [] ∉ f.spellings := by
  intro mem
  obtain ⟨param, among, empty⟩ := List.mem_map.mp mem
  exact (h.params param among).canonical.spelling_ne_nil empty

/-- Signatures are the same if the spellings in them are. -/
theorem signature_eq_iff_spellings (hf : f.Built) (hg : g.Built) :
    f.signature = g.signature ↔
      f.returnType.spelling = g.returnType.spelling ∧ f.spellings = g.spellings := by
  rw [← String.toList_inj, toList_signature, toList_signature,
    append_cons_inj (hf.returnType.canonical.unmarked (.inl rfl))
      (hg.returnType.canonical.unmarked (.inl rfl)), String.toList_inj]
  refine and_congr_right fun _ => ?_
  constructor
  · intro same
    exact intercalate_inj (fun _ => hf.comma_notMem) (fun _ => hg.comma_notMem) hf.nil_notMem
      hg.nil_notMem (List.append_cancel_right same)
  · intro same
    rw [same]

theorem spellings_eq_iff {params params' : List Param} (h : ∀ param ∈ params, param.type.Built)
    (h' : ∀ param ∈ params', param.type.Built) :
    params.map (fun param => param.type.spelling.toList) =
        params'.map (fun param => param.type.spelling.toList) ↔
      List.Forall₂ (fun p q => p.type.same q.type = true) params params' := by
  induction params generalizing params' with
  | nil => rw [List.map_nil, List.forall₂_nil_left_iff, eq_comm, List.map_eq_nil_iff]
  | cons p rest ih =>
    cases params' with
    | nil => simp
    | cons q rest' =>
      obtain ⟨first, others⟩ := List.forall_mem_cons.mp h
      obtain ⟨first', others'⟩ := List.forall_mem_cons.mp h'
      rw [List.map_cons, List.map_cons, List.cons.injEq, List.forall₂_cons, ih others others',
        String.toList_inj, first.canonical.same_iff_spelling_eq first'.canonical]

/-- **Functions have the same signature if and only if they have the same types.** -/
theorem signature_eq_iff (hf : f.Built) (hg : g.Built) :
    f.signature = g.signature ↔ f.SameTypes g := by
  rw [signature_eq_iff_spellings hf hg, SameTypes,
    hf.returnType.canonical.same_iff_spelling_eq hg.returnType.canonical]
  refine and_congr_right fun _ => ?_
  exact spellings_eq_iff hf.params hg.params

end FunctionDef

end FlatC
