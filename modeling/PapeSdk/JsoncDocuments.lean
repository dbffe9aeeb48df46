import PapeSdk.AsciiBytes

/-!
Documents in JSON with comments. A document is a tree of values with gaps between
its tokens; a gap holds white space and comments, and one comma may stand between
the last element and the closing bracket. A document without comments and trailing
commas is plain JSON. The literals of a value are kept as they are written, so
equal values have equal literals, byte for byte.
-/

namespace PapeSdk.JsoncDocuments

open BlockModes AsciiBytes

@[match_pattern] abbrev asterisk : UInt8 := 42

def isNewline (b : UInt8) : Bool := b == 10 || b == 13

/-- Space, tab, carriage return and line feed. -/
def isSpace (b : UInt8) : Bool := b == 32 || b == 9 || b == 13 || b == 10

theorem isSpace_of_isNewline {b : UInt8} (h : isNewline b = true) : isSpace b = true := by
  simp only [isNewline, Bool.or_eq_true, beq_iff_eq] at h
  rcases h with rfl | rfl
  · rfl
  · rfl

/-- A line comment goes to the end of its line, a block comment to the first mark that closes
it. -/
inductive Filler
  | space (b : UInt8) (h : isSpace b = true)
  | line (text : Bytes) (h : ∀ b ∈ text, isNewline b = false) (ending : UInt8)
      (hending : isNewline ending = true)
  | block (text : Bytes) (h : ¬ [asterisk, slash] <:+: text)

abbrev Gap := List Filler

namespace Filler

def render : Filler → Bytes
  | space b _ => [b]
  | line text _ ending _ => slash :: slash :: (text ++ [ending])
  | block text _ => slash :: asterisk :: (text ++ [asterisk, slash])

/-- The line feeds and carriage returns of a text. -/
def newlines (text : Bytes) : Gap :=
  text.filterMap fun b => if h : isNewline b = true then some (space b (isSpace_of_isNewline h))
    else none

/-- The white space that stays when comments go. -/
def spaces : Filler → Gap
  | space b h => [space b h]
  | line _ _ ending hending => [space ending (isSpace_of_isNewline hending)]
  | block text _ => newlines text

def IsSpace : Filler → Prop
  | space .. => True
  | _ => False

end Filler

namespace Gap

def render (g : Gap) : Bytes := g.flatMap Filler.render

def spaces (g : Gap) : Gap := g.flatMap Filler.spaces

def IsPlain (g : Gap) : Prop := ∀ f ∈ g, f.IsSpace

theorem render_append (g g' : Gap) : Gap.render (g ++ g') = Gap.render g ++ Gap.render g' :=
  List.flatMap_append

theorem spaces_isPlain (g : Gap) : IsPlain (spaces g) := by
  intro f hf
  obtain ⟨filler, -, hfiller⟩ := List.mem_flatMap.mp hf
  cases filler with
  | space b h =>
    rw [List.mem_singleton.mp hfiller]
    exact True.intro
  | line text h ending hending =>
    rw [List.mem_singleton.mp hfiller]
    exact True.intro
  | block text h =>
    obtain ⟨b, -, hb⟩ := List.mem_filterMap.mp hfiller
    split at hb
    · cases hb
      exact True.intro
    · cases hb

theorem spaces_of_isPlain {g : Gap} (h : IsPlain g) : spaces g = g := by
  induction g with
  | nil => rfl
  | cons filler rest ih =>
    have hrest : spaces rest = rest := ih fun f hf => h f (List.mem_cons_of_mem _ hf)
    cases filler with
    | space b hb => exact congrArg (Filler.space b hb :: ·) hrest
    | line text hline ending hending => exact (h _ List.mem_cons_self).elim
    | block text hblock => exact (h _ List.mem_cons_self).elim

theorem IsPlain.append {g g' : Gap} (h : IsPlain g) (h' : IsPlain g') : IsPlain (g ++ g') := by
  intro f hf
  rcases List.mem_append.mp hf with hf | hf
  · exact h f hf
  · exact h' f hf

theorem IsPlain.render {g : Gap} (h : IsPlain g) : ∀ b ∈ Gap.render g, isSpace b = true := by
  intro b hb
  obtain ⟨filler, hfiller, hmem⟩ := List.mem_flatMap.mp hb
  cases filler with
  | space c hc =>
    rw [List.mem_singleton.mp hmem]
    exact hc
  | line text hline ending hending => exact (h _ hfiller).elim
  | block text hblock => exact (h _ hfiller).elim

end Gap

def isDigit (b : UInt8) : Bool := 48 ≤ b && b ≤ 57

def isHex (b : UInt8) : Bool := isDigit b || (65 ≤ b && b ≤ 70) || (97 ≤ b && b ≤ 102)

/-- The letters that may follow a backslash, apart from `u`. -/
def escapes : Bytes := [quote, backslash, slash, 98, 102, 110, 114, 116]

inductive StringPiece
  | char (b : UInt8) (h : 32 ≤ b ∧ b ≠ quote ∧ b ≠ backslash)
  | escape (b : UInt8) (h : b ∈ escapes)
  | unicode (digits : Bytes) (h : digits.length = 4 ∧ ∀ b ∈ digits, isHex b = true)

def StringPiece.render : StringPiece → Bytes
  | char b _ => [b]
  | escape b _ => [backslash, b]
  | unicode digits _ => backslash :: 117 :: digits

abbrev StringLiteral := List StringPiece

/-- What stands between the quotes. -/
def StringLiteral.body (s : StringLiteral) : Bytes := s.flatMap StringPiece.render

def StringLiteral.render (s : StringLiteral) : Bytes := quote :: (s.body ++ [quote])

/-- One or more digits. -/
def Digits (t : Bytes) : Prop := t ≠ [] ∧ ∀ b ∈ t, isDigit b = true

/-- A sign, digits without a leading zero, a fraction and an exponent. -/
inductive IsNumber : Bytes → Prop
  | intro (sign int fraction exponent : Bytes) (hsign : sign = [] ∨ sign = [45])
      (hint : Digits int) (hleading : int = [48] ∨ int.head? ≠ some 48)
      (hfraction : fraction = [] ∨ ∃ t, Digits t ∧ fraction = 46 :: t)
      (hexponent : exponent = [] ∨ ∃ e s t, (e = 69 ∨ e = 101) ∧ (s = [] ∨ s = [43] ∨ s = [45]) ∧
        Digits t ∧ exponent = e :: (s ++ t)) :
      IsNumber (sign ++ int ++ fraction ++ exponent)

/-- A digit, a sign, a point or the letter of an exponent. -/
def isNumberByte (b : UInt8) : Bool := isDigit b || [43, 45, 46, 69, 101].contains b

theorem Digits.numberBytes {t : Bytes} (h : Digits t) : ∀ b ∈ t, isNumberByte b = true := by
  intro b hb
  rw [isNumberByte, h.2 b hb, Bool.true_or]

theorem IsNumber.numberBytes {t : Bytes} (h : IsNumber t) :
    t ≠ [] ∧ ∀ b ∈ t, isNumberByte b = true := by
  obtain ⟨sign, int, fraction, exponent, hsign, hint, -, hfraction, hexponent⟩ := h
  refine ⟨?_, ?_⟩
  · intro hempty
    simp only [List.append_eq_nil_iff] at hempty
    exact hint.1 hempty.1.1.2
  intro b hb
  simp only [List.mem_append] at hb
  rcases hb with ((hb | hb) | hb) | hb
  · rcases hsign with rfl | rfl
    · cases hb
    · rw [List.mem_singleton.mp hb]
      rfl
  · exact hint.numberBytes b hb
  · rcases hfraction with rfl | ⟨t, ht, rfl⟩
    · cases hb
    · rcases List.mem_cons.mp hb with rfl | hb
      · rfl
      · exact ht.numberBytes b hb
  · rcases hexponent with rfl | ⟨e, s, t, he, hs, ht, rfl⟩
    · cases hb
    · rcases List.mem_cons.mp hb with rfl | hb
      · rcases he with rfl | rfl <;> rfl
      · rcases List.mem_append.mp hb with hb | hb
        · rcases hs with rfl | rfl | rfl
          · cases hb
          · rw [List.mem_singleton.mp hb]
            rfl
          · rw [List.mem_singleton.mp hb]
            rfl
        · exact ht.numberBytes b hb

theorem ne_of_numberByte {b c : UInt8} (h : isNumberByte b = true) (hc : isNumberByte c = false) :
    b ≠ c := by
  rintro rfl
  rw [h] at hc
  cases hc

structure NumberLiteral where
  text : Bytes
  valid : IsNumber text

inductive Word
  | null
  | false
  | true
  deriving DecidableEq

def Word.render : Word → Bytes
  | null => [110, 117, 108, 108]
  | false => [102, 97, 108, 115, 101]
  | true => [116, 114, 117, 101]

inductive Kind
  | array
  | object
  deriving DecidableEq

def Kind.opening : Kind → UInt8
  | array => 91
  | object => 123

def Kind.closing : Kind → UInt8
  | array => 93
  | object => 125

/-- What stands before the value of an element. -/
inductive Head : Kind → Type
  | element (before : Gap) : Head .array
  | member (before : Gap) (key : StringLiteral) (between after : Gap) : Head .object

inductive Part
  | value
  | items (k : Kind)

/-- A value, or the elements of an array or object. -/
inductive Tree : Part → Type
  | word (w : Word) : Tree .value
  | number (n : NumberLiteral) : Tree .value
  | string (s : StringLiteral) : Tree .value
  | empty (k : Kind) (gap : Gap) : Tree .value
  | full (k : Kind) (items : Tree (.items k)) : Tree .value
  | last {k : Kind} (head : Head k) (v : Tree .value) (after : Gap) (trailing : Option Gap) :
      Tree (.items k)
  | more {k : Kind} (head : Head k) (v : Tree .value) (after : Gap) (rest : Tree (.items k)) :
      Tree (.items k)

inductive Json
  | word (w : Word)
  | number (text : Bytes)
  | string (body : Bytes)
  | array (items : List Json)
  | object (members : List (Bytes × Json))

def Kind.Item : Kind → Type
  | array => Json
  | object => Bytes × Json

def Kind.json : (k : Kind) → List k.Item → Json
  | array, items => .array items
  | object, members => .object members

def Part.Meaning : Part → Type
  | value => Json
  | items k => List k.Item

/-- The bracket that ends the elements. -/
def Part.closing : Part → Bytes
  | value => []
  | items k => [k.closing]

namespace Head

def render : {k : Kind} → Head k → Bytes
  | _, element before => Gap.render before
  | _, member before key between after =>
    Gap.render before ++ StringLiteral.render key ++ Gap.render between ++ colon ::
      Gap.render after

def item : {k : Kind} → Head k → Json → k.Item
  | _, element _, v => v
  | _, member _ key _ _, v => (StringLiteral.body key, v)

def uncommented : {k : Kind} → Head k → Head k
  | _, element before => element (Gap.spaces before)
  | _, member before key between after =>
    member (Gap.spaces before) key (Gap.spaces between) (Gap.spaces after)

def IsPlain : {k : Kind} → Head k → Prop
  | _, element before => Gap.IsPlain before
  | _, member before _ between after =>
    Gap.IsPlain before ∧ Gap.IsPlain between ∧ Gap.IsPlain after

end Head

namespace Tree

def render : {p : Part} → Tree p → Bytes
  | _, word w => w.render
  | _, number n => n.text
  | _, string s => StringLiteral.render s
  | _, empty k gap => k.opening :: (Gap.render gap ++ [k.closing])
  | _, full k items => k.opening :: (items.render ++ [k.closing])
  | _, last head v after none => head.render ++ v.render ++ Gap.render after
  | _, last head v after (some gap) =>
    head.render ++ v.render ++ Gap.render after ++ comma :: Gap.render gap
  | _, more head v after rest =>
    head.render ++ v.render ++ Gap.render after ++ comma :: rest.render

def value : {p : Part} → Tree p → p.Meaning
  | _, word w => Json.word w
  | _, number n => Json.number n.text
  | _, string s => Json.string (StringLiteral.body s)
  | _, empty k _ => k.json []
  | _, full k items => k.json items.value
  | _, last head v _ _ => [head.item v.value]
  | _, more head v _ rest => head.item v.value :: rest.value

/-- Without its comments. -/
def uncommented : {p : Part} → Tree p → Tree p
  | _, word w => word w
  | _, number n => number n
  | _, string s => string s
  | _, empty k gap => empty k (Gap.spaces gap)
  | _, full k items => full k items.uncommented
  | _, last head v after trailing =>
    last head.uncommented v.uncommented (Gap.spaces after) (trailing.map Gap.spaces)
  | _, more head v after rest =>
    more head.uncommented v.uncommented (Gap.spaces after) rest.uncommented

/-- Without its trailing commas. -/
def untrailed : {p : Part} → Tree p → Tree p
  | _, word w => word w
  | _, number n => number n
  | _, string s => string s
  | _, empty k gap => empty k gap
  | _, full k items => full k items.untrailed
  | _, last head v after trailing => last head v.untrailed (after ++ trailing.getD []) none
  | _, more head v after rest => more head v.untrailed after rest.untrailed

/-- Only white space in the gaps. -/
def Uncommented : {p : Part} → Tree p → Prop
  | _, word _ => True
  | _, number _ => True
  | _, string _ => True
  | _, empty _ gap => Gap.IsPlain gap
  | _, full _ items => items.Uncommented
  | _, last head v after trailing =>
    head.IsPlain ∧ v.Uncommented ∧ Gap.IsPlain after ∧ ∀ gap ∈ trailing, Gap.IsPlain gap
  | _, more head v after rest =>
    head.IsPlain ∧ v.Uncommented ∧ Gap.IsPlain after ∧ rest.Uncommented

def Untrailed : {p : Part} → Tree p → Prop
  | _, word _ => True
  | _, number _ => True
  | _, string _ => True
  | _, empty _ _ => True
  | _, full _ items => items.Untrailed
  | _, last _ v _ trailing => v.Untrailed ∧ trailing = none
  | _, more _ v _ rest => v.Untrailed ∧ rest.Untrailed

end Tree

/-- A line comment that the end of the document ends. -/
structure OpenComment where
  text : Bytes
  oneLine : ∀ b ∈ text, isNewline b = false

structure Document where
  before : Gap
  root : Tree .value
  after : Gap
  comment : Option OpenComment

namespace Document

def render (d : Document) : Bytes :=
  Gap.render d.before ++ d.root.render ++ Gap.render d.after ++
    match d.comment with
    | none => []
    | some c => slash :: slash :: c.text

/-- Comments and trailing commas have no value. -/
def value (d : Document) : Json := d.root.value

def uncommented (d : Document) : Document :=
  ⟨Gap.spaces d.before, d.root.uncommented, Gap.spaces d.after, none⟩

def untrailed (d : Document) : Document := { d with root := d.root.untrailed }

/-- No comments and no trailing commas: the documents of JSON. -/
structure IsPlain (d : Document) : Prop where
  before : Gap.IsPlain d.before
  uncommented : d.root.Uncommented
  untrailed : d.root.Untrailed
  after : Gap.IsPlain d.after
  comment : d.comment = none

end Document

section
variable {k : Kind} {p : Part}

theorem Head.uncommented_isPlain (head : Head k) : head.uncommented.IsPlain := by
  cases head with
  | element before => exact Gap.spaces_isPlain before
  | member before key between after =>
    exact ⟨Gap.spaces_isPlain before, Gap.spaces_isPlain between, Gap.spaces_isPlain after⟩

theorem Head.uncommented_item (head : Head k) : head.uncommented.item = head.item := by
  cases head with
  | element before => rfl
  | member before key between after => rfl

theorem Head.uncommented_of_isPlain {head : Head k} (h : head.IsPlain) :
    head.uncommented = head := by
  cases head with
  | element before => exact congrArg element (Gap.spaces_of_isPlain h)
  | member before key between after =>
    obtain ⟨hbefore, hbetween, hafter⟩ := h
    simp only [uncommented, Gap.spaces_of_isPlain hbefore, Gap.spaces_of_isPlain hbetween,
      Gap.spaces_of_isPlain hafter]

namespace Tree

theorem uncommented_uncommented (t : Tree p) : t.uncommented.Uncommented := by
  induction t with
  | word w => exact True.intro
  | number n => exact True.intro
  | string s => exact True.intro
  | empty k gap => exact Gap.spaces_isPlain gap
  | full k items ih => exact ih
  | last head v after trailing ih =>
    refine ⟨head.uncommented_isPlain, ih, Gap.spaces_isPlain after, ?_⟩
    intro gap hgap
    obtain ⟨g, -, rfl⟩ := Option.mem_map.mp hgap
    exact Gap.spaces_isPlain g
  | more head v after rest ih ihRest =>
    exact ⟨head.uncommented_isPlain, ih, Gap.spaces_isPlain after, ihRest⟩

theorem uncommented_value (t : Tree p) : t.uncommented.value = t.value := by
  induction t with
  | word w => rfl
  | number n => rfl
  | string s => rfl
  | empty k gap => rfl
  | full k items ih => exact congrArg k.json ih
  | last head v after trailing ih =>
    simp only [uncommented, value, head.uncommented_item, ih]
    rfl
  | more head v after rest ih ihRest =>
    simp only [uncommented, value, head.uncommented_item, ih, ihRest]
    rfl

theorem uncommented_of_uncommented {t : Tree p} (h : t.Uncommented) : t.uncommented = t := by
  induction t with
  | word w => rfl
  | number n => rfl
  | string s => rfl
  | empty k gap => exact congrArg (empty k) (Gap.spaces_of_isPlain h)
  | full k items ih => exact congrArg (full k) (ih h)
  | last head v after trailing ih =>
    obtain ⟨hhead, hv, hafter, htrailing⟩ := h
    have hgap : trailing.map Gap.spaces = trailing := by
      cases trailing with
      | none => rfl
      | some gap => exact congrArg some (Gap.spaces_of_isPlain (htrailing gap rfl))
    simp only [uncommented, Head.uncommented_of_isPlain hhead, ih hv,
      Gap.spaces_of_isPlain hafter, hgap]
  | more head v after rest ih ihRest =>
    obtain ⟨hhead, hv, hafter, hrest⟩ := h
    simp only [uncommented, Head.uncommented_of_isPlain hhead, ih hv,
      Gap.spaces_of_isPlain hafter, ihRest hrest]

theorem untrailed_untrailed (t : Tree p) : t.untrailed.Untrailed := by
  induction t with
  | word w => exact True.intro
  | number n => exact True.intro
  | string s => exact True.intro
  | empty k gap => exact True.intro
  | full k items ih => exact ih
  | last head v after trailing ih => exact ⟨ih, rfl⟩
  | more head v after rest ih ihRest => exact ⟨ih, ihRest⟩

theorem untrailed_uncommented {t : Tree p} (h : t.Uncommented) : t.untrailed.Uncommented := by
  induction t with
  | word w => exact True.intro
  | number n => exact True.intro
  | string s => exact True.intro
  | empty k gap => exact h
  | full k items ih => exact ih h
  | last head v after trailing ih =>
    obtain ⟨hhead, hv, hafter, htrailing⟩ := h
    refine ⟨hhead, ih hv, ?_, nofun⟩
    cases trailing with
    | none => exact hafter.append nofun
    | some gap => exact hafter.append (htrailing gap rfl)
  | more head v after rest ih ihRest =>
    obtain ⟨hhead, hv, hafter, hrest⟩ := h
    exact ⟨hhead, ih hv, hafter, ihRest hrest⟩

theorem untrailed_value (t : Tree p) : t.untrailed.value = t.value := by
  induction t with
  | word w => rfl
  | number n => rfl
  | string s => rfl
  | empty k gap => rfl
  | full k items ih => exact congrArg k.json ih
  | last head v after trailing ih =>
    simp only [untrailed, value, ih]
    rfl
  | more head v after rest ih ihRest =>
    simp only [untrailed, value, ih, ihRest]
    rfl

theorem untrailed_of_untrailed {t : Tree p} (h : t.Untrailed) : t.untrailed = t := by
  induction t with
  | word w => rfl
  | number n => rfl
  | string s => rfl
  | empty k gap => rfl
  | full k items ih => exact congrArg (full k) (ih h)
  | last head v after trailing ih =>
    obtain ⟨hv, rfl⟩ := h
    simp only [untrailed, ih hv, Option.getD_none, List.append_nil]
  | more head v after rest ih ihRest => simp only [untrailed, ih h.1, ihRest h.2]

end Tree

namespace Document

theorem clean_isPlain (d : Document) : d.uncommented.untrailed.IsPlain where
  before := Gap.spaces_isPlain d.before
  uncommented := Tree.untrailed_uncommented d.root.uncommented_uncommented
  untrailed := Tree.untrailed_untrailed _
  after := Gap.spaces_isPlain d.after
  comment := rfl

theorem clean_value (d : Document) : d.uncommented.untrailed.value = d.value :=
  d.root.uncommented.untrailed_value.trans d.root.uncommented_value

theorem clean_of_isPlain {d : Document} (h : d.IsPlain) : d.uncommented.untrailed = d := by
  obtain ⟨hbefore, huncommented, huntrailed, hafter, hcomment⟩ := h
  obtain ⟨before, root, after, comment⟩ := d
  simp only [uncommented, untrailed, Gap.spaces_of_isPlain hbefore,
    Tree.uncommented_of_uncommented huncommented, Tree.untrailed_of_untrailed huntrailed,
    Gap.spaces_of_isPlain hafter]
  rw [← hcomment]

end Document

/-- The first byte of a token that is neither white space nor a closing bracket. -/
def Opens (b : UInt8) : Prop := isSpace b = false ∧ (b == 125 || b == 93) = false

instance (b : UInt8) : Decidable (Opens b) := inferInstanceAs (Decidable (_ ∧ _))

def Starts (t : Bytes) : Prop := ∃ b rest, t = b :: rest ∧ Opens b

theorem Starts.append {t : Bytes} (h : Starts t) (rest : Bytes) : Starts (t ++ rest) := by
  obtain ⟨b, tail, rfl, hb⟩ := h
  exact ⟨b, tail ++ rest, rfl, hb⟩

theorem Opens.of_numberByte {b : UInt8} (h : isNumberByte b = true) : Opens b := by
  simp only [Opens, isSpace, Bool.or_eq_false_iff, beq_eq_false_iff_ne]
  refine ⟨⟨⟨⟨?_, ?_⟩, ?_⟩, ?_⟩, ?_, ?_⟩
  all_goals
    apply ne_of_numberByte h
    rfl

theorem StringLiteral.starts (s : StringLiteral) : Starts (StringLiteral.render s) :=
  ⟨quote, _, rfl, by decide⟩

theorem Tree.starts (v : Tree .value) : Starts v.render := by
  cases v with
  | word w =>
    cases w with
    | null => exact ⟨110, _, rfl, by decide⟩
    | false => exact ⟨102, _, rfl, by decide⟩
    | true => exact ⟨116, _, rfl, by decide⟩
  | number n =>
    obtain ⟨hne, hbytes⟩ := n.valid.numberBytes
    obtain ⟨b, rest, htext⟩ := List.exists_cons_of_ne_nil hne
    refine ⟨b, rest, htext, Opens.of_numberByte (hbytes b ?_)⟩
    rw [htext]
    exact List.mem_cons_self
  | string s => exact StringLiteral.starts s
  | empty k gap =>
    cases k with
    | array => exact ⟨91, _, rfl, by decide⟩
    | object => exact ⟨123, _, rfl, by decide⟩
  | full k items =>
    cases k with
    | array => exact ⟨91, _, rfl, by decide⟩
    | object => exact ⟨123, _, rfl, by decide⟩

/-- An element starts after the white space before it. -/
theorem Head.starts {head : Head k} (h : head.IsPlain) {t : Bytes} (ht : Starts t) :
    ∃ gap rest, head.render ++ t = gap ++ rest ∧ (∀ b ∈ gap, isSpace b = true) ∧ Starts rest := by
  cases head with
  | element before => exact ⟨_, t, rfl, h.render, ht⟩
  | member before key between after =>
    refine ⟨_, _, ?_, h.1.render, (StringLiteral.starts key).append
      (Gap.render between ++ colon :: Gap.render after ++ t)⟩
    simp only [Head.render, List.append_assoc, List.cons_append]

theorem Tree.items_start {t : Tree (.items k)} (h : t.Uncommented) (tail : Bytes) :
    ∃ gap rest, t.render ++ tail = gap ++ rest ∧ (∀ b ∈ gap, isSpace b = true) ∧ Starts rest := by
  cases t with
  | last head v after trailing =>
    cases trailing with
    | none =>
      have hstart := Head.starts h.1 (v.starts.append (Gap.render after ++ tail))
      simpa only [Tree.render, List.append_assoc] using hstart
    | some gap =>
      have hstart := Head.starts h.1
        (v.starts.append (Gap.render after ++ comma :: Gap.render gap ++ tail))
      simpa only [Tree.render, List.append_assoc, List.cons_append] using hstart
  | more head v after rest =>
    have hstart := Head.starts h.1
      (v.starts.append (Gap.render after ++ comma :: rest.render ++ tail))
    simpa only [Tree.render, List.append_assoc, List.cons_append] using hstart

end

end PapeSdk.JsoncDocuments
