import PapeSdk.AsciiBytes
import PapeSdk.TextCodecs

/-!
Text sent as a block of lines. A line ends with CR LF, a line that begins with a dot is
sent with one dot more, and a line of a single dot ends the block. The writer goes byte
by byte and completes lines that end with LF alone; the reader cuts the bytes into
lines first. A message is a header of named fields, an empty line and a body.
-/

namespace PapeSdk.DottedText

open BlockModes AsciiBytes TextCodecs

def cr : UInt8 := 13

def lf : UInt8 := 10

/-- Text without line breaks. -/
def Unbroken (text : Bytes) : Prop := text.any isLineBreak = false

/-- Where the writer stands. -/
inductive Place where
  | start
  | lineStart
  | afterCR
  | inLine
  deriving DecidableEq

/-- The bytes for one byte of the text, and the place behind it. -/
def Place.write (place : Place) (b : UInt8) : Bytes × Place :=
  if place = afterCR then ([b], if b = lf then lineStart else inLine)
  else if b = lf then ([cr, lf], lineStart)
  else if b = cr then ([cr], afterCR)
  else if b = dot ∧ place ≠ inLine then ([dot, dot], inLine)
  else ([b], inLine)

def Place.finish : Place → Bytes
  | start => [cr, lf, dot, cr, lf]
  | inLine => [cr, lf, dot, cr, lf]
  | afterCR => [lf, dot, cr, lf]
  | lineStart => [dot, cr, lf]

def dotWrite (place : Place) : Bytes → Bytes
  | [] => place.finish
  | b :: rest => (place.write b).1 ++ dotWrite (place.write b).2 rest

/-- The finished lines and the unfinished one, with the bytes of the present line in reverse. -/
def cutLines (line : Bytes) : Bytes → List Bytes × Bytes
  | [] => ([], line.reverse)
  | b :: rest =>
    if b = lf ∧ line.head? = some cr then
      (line.tail.reverse :: (cutLines [] rest).1, (cutLines [] rest).2)
    else cutLines (b :: line) rest

def undot (line : Bytes) : Bytes := if line.head? = some dot then line.tail else line

/-- The lines of a block and those behind it. -/
def readBlock : List Bytes → Option (List Bytes × List Bytes)
  | [] => none
  | line :: rest =>
    if line = [dot] then some ([], rest)
    else (readBlock rest).map fun read => (undot line :: read.1, read.2)

/-- The text of whole lines. -/
def joinLines (lines : List Bytes) : Bytes := lines.flatMap fun line => line ++ [cr, lf]

theorem joinLines_cons (line : Bytes) (rest : List Bytes) :
    joinLines (line :: rest) = line ++ cr :: lf :: joinLines rest := by
  rw [joinLines, List.flatMap_cons, List.append_assoc]
  rfl

theorem unbroken_iff {text : Bytes} : Unbroken text ↔ cr ∉ text ∧ lf ∉ text := by
  unfold Unbroken
  rw [List.any_eq_false]
  constructor
  · intro h
    exact ⟨fun hmem => h cr hmem rfl, fun hmem => h lf hmem rfl⟩
  · rintro ⟨hcr, hlf⟩ b hb hbreak
    rw [isLineBreak, Bool.or_eq_true, beq_iff_eq, beq_iff_eq] at hbreak
    rcases hbreak with rfl | rfl
    · exact hlf hb
    · exact hcr hb

theorem ne_of_isLineBreak {b : UInt8} (h : isLineBreak b = false) : b ≠ lf ∧ b ≠ cr := by
  rw [isLineBreak, Bool.or_eq_false_iff, beq_eq_false_iff_ne, beq_eq_false_iff_ne] at h
  exact h

theorem unbroken_append {a b : Bytes} : Unbroken (a ++ b) ↔ Unbroken a ∧ Unbroken b := by
  rw [unbroken_iff, unbroken_iff, unbroken_iff, List.mem_append, List.mem_append]
  tauto

theorem unbroken_cons {x : UInt8} {a : Bytes} :
    Unbroken (x :: a) ↔ isLineBreak x = false ∧ Unbroken a := by
  unfold Unbroken
  rw [List.any_cons, Bool.or_eq_false_iff]

/-- A line the way it is sent. -/
def dotted (line : Bytes) : Bytes := if line.head? = some dot then dot :: line else line

theorem undot_dotted (line : Bytes) : undot (dotted line) = line := by
  unfold dotted
  by_cases h : line.head? = some dot
  · rw [if_pos h]
    rfl
  · rw [if_neg h, undot, if_neg h]

/-- A line of a single dot is sent with two. -/
theorem dotted_ne (line : Bytes) : dotted line ≠ [dot] := by
  unfold dotted
  by_cases h : line.head? = some dot
  · rw [if_pos h]
    intro heq
    have hnil : line = [] := (List.cons.inj heq).2
    rw [hnil] at h
    cases h
  · rw [if_neg h]
    rintro rfl
    exact h rfl

theorem unbroken_dotted {line : Bytes} (h : Unbroken line) : Unbroken (dotted line) := by
  unfold dotted
  by_cases hdot : line.head? = some dot
  · rw [if_pos hdot, unbroken_cons]
    exact ⟨rfl, h⟩
  · rwa [if_neg hdot]

theorem write_inLine {b : UInt8} (h : isLineBreak b = false) :
    Place.inLine.write b = ([b], .inLine) := by
  obtain ⟨hlf, hcr⟩ := ne_of_isLineBreak h
  rw [Place.write, if_neg (by decide), if_neg hlf, if_neg hcr, if_neg (fun hdot => hdot.2 rfl)]

theorem dotWrite_inLine {line : Bytes} (h : Unbroken line) (rest : Bytes) :
    dotWrite .inLine (line ++ cr :: lf :: rest) = line ++ cr :: lf :: dotWrite .lineStart rest := by
  induction line with
  | nil => rfl
  | cons b line ih =>
    rw [unbroken_cons] at h
    rw [List.cons_append, dotWrite, write_inLine h.1, ih h.2]
    rfl

/-- A fresh line is written dotted. -/
theorem dotWrite_line {place : Place} (hplace : place = .start ∨ place = .lineStart)
    {line : Bytes} (h : Unbroken line) (rest : Bytes) :
    dotWrite place (line ++ cr :: lf :: rest) =
      dotted line ++ cr :: lf :: dotWrite .lineStart rest := by
  cases line with
  | nil =>
    rcases hplace with rfl | rfl
    · rfl
    · rfl
  | cons b line =>
    rw [unbroken_cons] at h
    have hbreak := ne_of_isLineBreak h.1
    have hcr : place ≠ .afterCR := by
      rcases hplace with rfl | rfl
      · decide
      · decide
    have hline : place ≠ .inLine := by
      rcases hplace with rfl | rfl
      · decide
      · decide
    have hplain : place.write b = (if b = dot then [dot, dot] else [b], .inLine) := by
      rw [Place.write, if_neg hcr, if_neg hbreak.1, if_neg hbreak.2]
      by_cases hdot : b = dot
      · rw [if_pos ⟨hdot, hline⟩, if_pos hdot]
      · rw [if_neg (fun hboth => hdot hboth.1), if_neg hdot]
    rw [List.cons_append, dotWrite, hplain, dotWrite_inLine h.2]
    unfold dotted
    by_cases hdot : b = dot
    · rw [if_pos hdot, hdot]
      rfl
    · have hhead : (b :: line).head? ≠ some dot := fun heq => hdot (Option.some.inj heq)
      rw [if_neg hdot, if_neg hhead]
      rfl

theorem dotWrite_joinLines {lines : List Bytes} (h : ∀ line ∈ lines, Unbroken line) :
    dotWrite .lineStart (joinLines lines) = joinLines (lines.map dotted) ++ [dot, cr, lf] := by
  induction lines with
  | nil => rfl
  | cons line rest ih =>
    rw [List.forall_mem_cons] at h
    rw [joinLines_cons, dotWrite_line (Or.inr rfl) h.1, ih h.2, List.map_cons, joinLines_cons,
      List.append_assoc]
    rfl

/-- The first line of a text may not be told from any other. -/
theorem dotWrite_start {lines : List Bytes} (hne : lines ≠ []) (h : ∀ line ∈ lines, Unbroken line) :
    dotWrite .start (joinLines lines) = joinLines (lines.map dotted) ++ [dot, cr, lf] := by
  rw [← dotWrite_joinLines h]
  cases lines with
  | nil => exact absurd rfl hne
  | cons line rest =>
    rw [List.forall_mem_cons] at h
    rw [joinLines_cons, dotWrite_line (Or.inl rfl) h.1, dotWrite_line (Or.inr rfl) h.1]

theorem cutLines_line {line : Bytes} (h : Unbroken line) (front rest : Bytes) :
    cutLines front (line ++ cr :: lf :: rest) =
      ((front.reverse ++ line) :: (cutLines [] rest).1, (cutLines [] rest).2) := by
  induction line generalizing front with
  | nil =>
    have hcr : cutLines front (cr :: lf :: rest) = cutLines (cr :: front) (lf :: rest) :=
      if_neg fun hlf => absurd hlf.1 (by decide)
    rw [List.nil_append, hcr, cutLines, if_pos ⟨rfl, rfl⟩, List.append_nil]
    rfl
  | cons b line ih =>
    rw [unbroken_cons] at h
    have hb : ¬ (b = lf ∧ front.head? = some cr) := fun hlf => (ne_of_isLineBreak h.1).1 hlf.1
    rw [List.cons_append, cutLines, if_neg hb, ih h.2, List.reverse_cons, List.append_assoc]
    rfl

theorem cutLines_joinLines {lines : List Bytes} (h : ∀ line ∈ lines, Unbroken line)
    (rest : Bytes) : cutLines [] (joinLines lines ++ rest) =
      (lines ++ (cutLines [] rest).1, (cutLines [] rest).2) := by
  induction lines with
  | nil => rfl
  | cons line lines ih =>
    rw [List.forall_mem_cons] at h
    have hsplit : joinLines (line :: lines) ++ rest =
        line ++ cr :: lf :: (joinLines lines ++ rest) := by
      rw [joinLines_cons, List.append_assoc]
      rfl
    rw [hsplit, cutLines_line h.1, ih h.2]
    rfl

theorem readBlock_dotted (lines behind : List Bytes) :
    readBlock (lines.map dotted ++ [dot] :: behind) = some (lines, behind) := by
  induction lines with
  | nil => rfl
  | cons line rest ih =>
    rw [List.map_cons, List.cons_append, readBlock, if_neg (dotted_ne line), ih, undot_dotted]
    rfl

/-- Whole lines are read back, and the block ends with the bytes that were written. -/
theorem readBlock_dotWrite {lines : List Bytes} (hne : lines ≠ [])
    (h : ∀ line ∈ lines, Unbroken line) (behind : Bytes) :
    readBlock (cutLines [] (dotWrite .start (joinLines lines) ++ behind)).1 =
      some (lines, (cutLines [] behind).1) := by
  have hdotted : ∀ line ∈ lines.map dotted ++ [[dot]], Unbroken line := by
    intro line hline
    rcases List.mem_append.mp hline with hmapped | hlast
    · obtain ⟨source, hsource, rfl⟩ := List.mem_map.mp hmapped
      exact unbroken_dotted (h source hsource)
    · rw [List.mem_singleton.mp hlast]
      rfl
  have hblock : joinLines (lines.map dotted) ++ [dot, cr, lf] =
      joinLines (lines.map dotted ++ [[dot]]) := by
    rw [joinLines, joinLines, List.flatMap_append]
    rfl
  rw [dotWrite_start hne h, hblock, cutLines_joinLines hdotted, List.append_assoc]
  exact readBlock_dotted lines _

structure Message where
  fields : List (Bytes × Bytes)
  body : List Bytes
  deriving DecidableEq

def space : UInt8 := 32

/-- Whether a line goes on with the field before it. -/
def folded (line : Bytes) : Bool := line.head? == some space || line.head? == some 9

/-- Name and value, without the space that follows the colon. -/
def cutField (line : Bytes) : Option (Bytes × Bytes) :=
  if colon ∈ line then
    let value := (line.dropWhile (· != colon)).tail
    some (line.takeWhile (· != colon), if value.head? = some space then value.tail else value)
  else none

/-- The message of some lines, in front of it what goes on with a field before. -/
def readFields : List Bytes → Option (Bytes × Message)
  | [] => none
  | line :: rest =>
    if line = [] then some ([], ⟨[], rest⟩)
    else
      match readFields rest with
      | none => none
      | some (more, message) =>
        if folded line then some (line ++ more, message)
        else
          match cutField (line ++ more) with
          | none => none
          | some field => some ([], ⟨field :: message.fields, message.body⟩)

def readMessage (lines : List Bytes) : Option Message :=
  match readFields lines with
  | none => none
  | some (more, message) => if more = [] then some message else none

/-- A name that a field can have. -/
structure FieldName (name : Bytes) : Prop where
  nonempty : name ≠ []
  plain : colon ∉ name
  unfolded : folded name = false

def fieldLine (field : Bytes × Bytes) : Bytes := field.1 ++ colon :: space :: field.2

theorem unbroken_fieldLine {field : Bytes × Bytes} (hname : Unbroken field.1)
    (hvalue : Unbroken field.2) : Unbroken (fieldLine field) := by
  rw [fieldLine, unbroken_append, unbroken_cons, unbroken_cons]
  exact ⟨hname, rfl, rfl, hvalue⟩

theorem cutField_fieldLine {field : Bytes × Bytes} (h : colon ∉ field.1) :
    cutField (fieldLine field) = some field := by
  have hname : ∀ b ∈ field.1, (b != colon) = true := by
    intro b hb
    exact bne_iff_ne.mpr fun heq => h (heq ▸ hb)
  have htake : (fieldLine field).takeWhile (· != colon) = field.1 := by
    rw [fieldLine, List.takeWhile_append_of_pos hname]
    exact List.append_nil _
  have hdrop : (fieldLine field).dropWhile (· != colon) = colon :: space :: field.2 := by
    rw [fieldLine, List.dropWhile_append_of_pos hname]
    rfl
  have hmem : colon ∈ fieldLine field := List.mem_append_right _ List.mem_cons_self
  rw [cutField, if_pos hmem, htake, hdrop]
  rfl

/-- Fields, an empty line and a body are read back. -/
theorem readMessage_fields {fields : List (Bytes × Bytes)} {body : List Bytes}
    (h : ∀ field ∈ fields, FieldName field.1) :
    readMessage (fields.map fieldLine ++ [] :: body) = some ⟨fields, body⟩ := by
  have hread : readFields (fields.map fieldLine ++ [] :: body) = some ([], ⟨fields, body⟩) := by
    induction fields with
    | nil => rfl
    | cons field rest ih =>
      rw [List.forall_mem_cons] at h
      obtain ⟨b, name, hb⟩ := List.exists_cons_of_ne_nil h.1.nonempty
      have hne : fieldLine field ≠ [] := by
        rw [fieldLine, hb]
        exact List.cons_ne_nil _ _
      have hunfolded : folded (fieldLine field) = false := by
        have hname := h.1.unfolded
        rw [hb] at hname
        rw [fieldLine, hb]
        exact hname
      rw [List.map_cons, List.cons_append, readFields, if_neg hne, ih h.2]
      simp only [hunfolded, Bool.false_eq_true, if_false, List.append_nil,
        cutField_fieldLine h.1.plain]
  rw [readMessage, hread]
  exact if_pos rfl

end PapeSdk.DottedText
