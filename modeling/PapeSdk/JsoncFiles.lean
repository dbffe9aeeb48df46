import PapeSdk.JsoncDocuments

/-!
The files that `internal/data/jsonc.go` reads. One scanner drops the comments and
keeps the ends of their lines, a second one drops a comma that a closing bracket
follows. Both copy strings as they are, so that a mark inside a string is no mark,
and each of them treats a document piece by piece.
-/

namespace PapeSdk

open BlockModes AsciiBytes JsoncDocuments

/-- The variables `inString` and `escaped`. -/
inductive Quoting
  | outside
  | inside (escaped : Bool)
  deriving DecidableEq

def Quoting.next (ch : UInt8) : Quoting → Quoting
  | outside => if ch = quote then inside false else outside
  | inside true => inside false
  | inside false =>
    if ch = backslash then inside true else if ch = quote then outside else inside false

/-- `line` and `block` are the inner loops of `StripJSONC`. -/
inductive StripMode
  | scan (q : Quoting)
  | line
  | block

def stripFrom : StripMode → Bytes → Bytes
  | _, [] => []
  | .scan .outside, slash :: slash :: rest => stripFrom .line rest
  | .scan .outside, slash :: asterisk :: rest => stripFrom .block rest
  | .scan q, ch :: rest => ch :: stripFrom (.scan (q.next ch)) rest
  | .line, ch :: rest =>
    if isNewline ch then ch :: stripFrom (.scan .outside) rest else stripFrom .line rest
  | .block, asterisk :: slash :: rest => stripFrom (.scan .outside) rest
  -- the loop stops before the last byte, and the loop around it steps over it
  | .block, [_] => []
  | .block, ch :: rest =>
    if isNewline ch then ch :: stripFrom .block rest else stripFrom .block rest

def stripJSONC (input : Bytes) : Bytes := stripFrom (.scan .outside) input

/-- After white space comes a closing bracket. -/
def closesNext (rest : Bytes) : Bool :=
  match rest.dropWhile isSpace with
  | [] => false
  | ch :: _ => ch == 125 || ch == 93

def removeFrom : Quoting → Bytes → Bytes
  | _, [] => []
  | q, ch :: rest =>
    if q = .outside ∧ ch = comma ∧ closesNext rest = true then removeFrom q rest
    else ch :: removeFrom (q.next ch) rest

def removeTrailingCommas (input : Bytes) : Bytes := removeFrom .outside input

/-- What `LoadJSONC` hands to the JSON decoder. -/
def cleanJSONC (raw : Bytes) : Bytes := removeTrailingCommas (stripJSONC raw)

-- the equations of the scanner are derived here, once for all proofs that rewrite with them
section
attribute [local simp] stripFrom
end

/-- The scanner turns the piece `a` into `b`, whatever comes after it. -/
def Passes (f : Bytes → Bytes) (a b : Bytes) : Prop := ∀ rest, f (a ++ rest) = b ++ f rest

section
variable {f : Bytes → Bytes} {a a' b b' : Bytes}

theorem Passes.nil : Passes f [] [] := fun _ => rfl

theorem Passes.append (h : Passes f a b) (h' : Passes f a' b') :
    Passes f (a ++ a') (b ++ b') := by
  intro rest
  rw [List.append_assoc, h, h', List.append_assoc]

theorem Passes.cons {c : UInt8} (h : Passes f [c] [c]) (h' : Passes f a b) :
    Passes f (c :: a) (c :: b) := h.append h'

end

/-- Bytes that both scanners copy outside strings. -/
def isQuiet (b : UInt8) : Bool := b != quote && b != slash && b != comma

/-- A scanner with a quoting state copies the bytes of strings and quiet bytes. -/
structure CopiesTokens (f : Quoting → Bytes → Bytes) : Prop where
  inside : ∀ escaped ch rest, f (.inside escaped) (ch :: rest) =
    ch :: f (Quoting.next ch (.inside escaped)) rest
  opening : ∀ rest, f .outside (quote :: rest) = quote :: f (.inside false) rest
  quiet : ∀ ch rest, isQuiet ch = true → f .outside (ch :: rest) = ch :: f .outside rest

theorem strip_copies : CopiesTokens fun q => stripFrom (.scan q) where
  inside escaped ch rest := by
    rw [stripFrom]
    · intro _ h
      cases h
    · intro _ h
      cases h
  opening rest := rfl
  quiet ch rest h := by
    simp only [isQuiet, Bool.and_eq_true, bne_iff_ne] at h
    rw [stripFrom, Quoting.next, if_neg h.1.1]
    · intro _ _ hch
      exact absurd hch h.1.2
    · intro _ _ hch
      exact absurd hch h.1.2

theorem remove_copies : CopiesTokens removeFrom where
  inside escaped ch rest := by
    rw [removeFrom, if_neg]
    intro h
    cases h.1
  opening rest := rfl
  quiet ch rest h := by
    simp only [isQuiet, Bool.and_eq_true, bne_iff_ne] at h
    rw [removeFrom, if_neg fun hcomma => h.2 hcomma.2.1, Quoting.next, if_neg h.1.1]

namespace CopiesTokens

variable {f : Quoting → Bytes → Bytes}

theorem string_piece (hf : CopiesTokens f) (piece : StringPiece) (rest : Bytes) :
    f (.inside false) (piece.render ++ rest) = piece.render ++ f (.inside false) rest := by
  cases piece with
  | char b h =>
    simp only [StringPiece.render, List.cons_append, List.nil_append, hf.inside, Quoting.next,
      if_neg h.2.1, if_neg h.2.2]
  | escape b h =>
    simp only [StringPiece.render, List.cons_append, List.nil_append, hf.inside, Quoting.next,
      if_true]
  | unicode digits h =>
    have hdigits : ∀ t : Bytes, (∀ b ∈ t, isHex b = true) →
        f (.inside false) (t ++ rest) = t ++ f (.inside false) rest := by
      intro t ht
      induction t with
      | nil => rfl
      | cons b t ih =>
        have hb : isHex b = true := ht b List.mem_cons_self
        have hslash : b ≠ backslash := by
          rintro rfl
          cases hb
        have hquote : b ≠ quote := by
          rintro rfl
          cases hb
        rw [List.cons_append, hf.inside, Quoting.next, if_neg hslash, if_neg hquote,
          ih fun c hc => ht c (List.mem_cons_of_mem _ hc), List.cons_append]
    simp only [StringPiece.render, List.cons_append, hf.inside, Quoting.next, if_true]
    rw [hdigits digits h.2]

theorem string_body (hf : CopiesTokens f) (s : StringLiteral) (rest : Bytes) :
    f (.inside false) (StringLiteral.body s ++ rest) =
      StringLiteral.body s ++ f (.inside false) rest := by
  induction s with
  | nil => rfl
  | cons piece s ih =>
    have hbody : StringLiteral.body (piece :: s) = piece.render ++ StringLiteral.body s := rfl
    rw [hbody, List.append_assoc, hf.string_piece, ih, List.append_assoc]

/-- A string comes through as it is. -/
theorem string (hf : CopiesTokens f) (s : StringLiteral) :
    Passes (f .outside) s.render s.render := by
  intro rest
  rw [StringLiteral.render, List.cons_append, hf.opening, List.append_assoc, hf.string_body,
    List.singleton_append, hf.inside, Quoting.next, if_neg (by decide), if_pos rfl,
    List.cons_append, List.append_assoc, List.singleton_append]

theorem quietBytes (hf : CopiesTokens f) {t : Bytes} (h : ∀ b ∈ t, isQuiet b = true) :
    Passes (f .outside) t t := by
  intro rest
  induction t with
  | nil => rfl
  | cons b t ih =>
    rw [List.cons_append, hf.quiet b _ (h b List.mem_cons_self),
      ih fun c hc => h c (List.mem_cons_of_mem _ hc), List.cons_append]

theorem quietByte (hf : CopiesTokens f) {b : UInt8} (h : isQuiet b = true) :
    Passes (f .outside) [b] [b] := by
  apply hf.quietBytes
  intro c hc
  rw [List.mem_singleton.mp hc]
  exact h

end CopiesTokens

theorem isQuiet_of_isSpace {b : UInt8} (h : isSpace b = true) : isQuiet b = true := by
  simp only [isSpace, Bool.or_eq_true, beq_iff_eq] at h
  rcases h with ((rfl | rfl) | rfl) | rfl <;> rfl

theorem word_quiet (w : Word) : ∀ b ∈ w.render, isQuiet b = true := by
  have hall : w.render.all isQuiet = true := by
    cases w <;> rfl
  exact List.all_eq_true.mp hall

theorem isQuiet_bracket (k : Kind) : isQuiet k.opening = true ∧ isQuiet k.closing = true := by
  cases k <;> decide

theorem isQuiet_of_numberByte {b : UInt8} (h : isNumberByte b = true) : isQuiet b = true := by
  simp only [isQuiet, Bool.and_eq_true, bne_iff_ne]
  exact ⟨⟨ne_of_numberByte h rfl, ne_of_numberByte h rfl⟩, ne_of_numberByte h rfl⟩

theorem strip_line {text : Bytes} (h : ∀ b ∈ text, isNewline b = false) {ending : UInt8}
    (hending : isNewline ending = true) (rest : Bytes) :
    stripFrom .line (text ++ ending :: rest) = ending :: stripFrom (.scan .outside) rest := by
  induction text with
  | nil => rw [List.nil_append, stripFrom, if_pos hending]
  | cons b text ih =>
    have hb : ¬ isNewline b = true := by
      rw [h b List.mem_cons_self]
      exact Bool.false_ne_true
    rw [List.cons_append, stripFrom, if_neg hb]
    exact ih fun c hc => h c (List.mem_cons_of_mem _ hc)

theorem strip_open_comment {text : Bytes} (h : ∀ b ∈ text, isNewline b = false) :
    stripFrom .line text = [] := by
  induction text with
  | nil => rfl
  | cons b text ih =>
    have hb : ¬ isNewline b = true := by
      rw [h b List.mem_cons_self]
      exact Bool.false_ne_true
    rw [stripFrom, if_neg hb]
    exact ih fun c hc => h c (List.mem_cons_of_mem _ hc)

/-- The line feeds of a block comment stay. -/
theorem strip_block {text : Bytes} (h : ¬ [asterisk, slash] <:+: text) (rest : Bytes) :
    stripFrom .block (text ++ asterisk :: slash :: rest) =
      Gap.render (Filler.newlines text) ++ stripFrom (.scan .outside) rest := by
  induction text with
  | nil => rfl
  | cons b text ih =>
    have htext : ¬ [asterisk, slash] <:+: text :=
      fun hwithin => h (hwithin.trans (List.suffix_cons b text).isInfix)
    have hopen : ∀ tail, b = asterisk → text ++ asterisk :: slash :: rest ≠ slash :: tail := by
      intro tail hb htail
      cases text with
      | nil => cases htail
      | cons c text =>
        apply h
        rw [hb, (List.cons.inj htail).1]
        exact (List.prefix_append [asterisk, slash] text).isInfix
    have hlong : text ++ asterisk :: slash :: rest ≠ [] := by simp
    rw [List.cons_append, stripFrom, ih htext]
    · cases hb : isNewline b with
      | true =>
        have hnew : Filler.newlines (b :: text) =
            Filler.space b (isSpace_of_isNewline hb) :: Filler.newlines text := by
          simp [Filler.newlines, hb]
        rw [hnew, if_pos rfl]
        rfl
      | false =>
        have hnew : Filler.newlines (b :: text) = Filler.newlines text := by
          simp [Filler.newlines, hb]
        rw [hnew, if_neg Bool.false_ne_true]
    · exact hopen
    · exact hlong

theorem strip_filler (filler : Filler) :
    Passes stripJSONC filler.render (Gap.render filler.spaces) := by
  intro rest
  cases filler with
  | space b h => exact strip_copies.quiet b rest (isQuiet_of_isSpace h)
  | line text h ending hending =>
    have hrender : (Filler.line text h ending hending).render ++ rest =
        slash :: slash :: (text ++ ending :: rest) := by
      simp only [Filler.render, List.cons_append, List.append_assoc, List.nil_append]
    have hopen : ∀ t, stripJSONC (slash :: slash :: t) = stripFrom .line t := fun _ => rfl
    rw [hrender, hopen, strip_line h hending]
    rfl
  | block text h =>
    have hrender : (Filler.block text h).render ++ rest =
        slash :: asterisk :: (text ++ asterisk :: slash :: rest) := by
      simp only [Filler.render, List.cons_append, List.append_assoc, List.nil_append]
    have hopen : ∀ t, stripJSONC (slash :: asterisk :: t) = stripFrom .block t := fun _ => rfl
    rw [hrender, hopen, strip_block h]
    rfl

theorem strip_gap (g : Gap) : Passes stripJSONC (Gap.render g) (Gap.render (Gap.spaces g)) := by
  induction g with
  | nil => exact Passes.nil
  | cons filler rest ih =>
    have hspaces : Gap.render (Gap.spaces (filler :: rest)) =
        Gap.render filler.spaces ++ Gap.render (Gap.spaces rest) :=
      Gap.render_append filler.spaces (Gap.spaces rest)
    rw [hspaces]
    exact (strip_filler filler).append ih

theorem strip_string (s : StringLiteral) : Passes stripJSONC s.render s.render :=
  strip_copies.string s

theorem strip_quiet {b : UInt8} (h : isQuiet b = true) : Passes stripJSONC [b] [b] :=
  strip_copies.quietByte h

theorem strip_comma : Passes stripJSONC [comma] [comma] := by
  intro rest
  rfl

theorem strip_head {k : Kind} (head : Head k) :
    Passes stripJSONC head.render head.uncommented.render := by
  cases head with
  | element before => exact strip_gap before
  | member before key between after =>
    exact (((strip_gap before).append (strip_string key)).append (strip_gap between)).append
      ((strip_quiet (b := colon) rfl).cons (strip_gap after))

theorem strip_tree {p : Part} (t : Tree p) :
    Passes stripJSONC t.render t.uncommented.render := by
  induction t with
  | word w => exact strip_copies.quietBytes (word_quiet w)
  | number n =>
    exact strip_copies.quietBytes fun b hb => isQuiet_of_numberByte (n.valid.numberBytes.2 b hb)
  | string s => exact strip_string s
  | empty k gap =>
    exact (strip_quiet (isQuiet_bracket k).1).cons
      ((strip_gap gap).append (strip_quiet (isQuiet_bracket k).2))
  | full k items ih =>
    exact (strip_quiet (isQuiet_bracket k).1).cons (ih.append (strip_quiet (isQuiet_bracket k).2))
  | last head v after trailing ih =>
    have helement := ((strip_head head).append ih).append (strip_gap after)
    cases trailing with
    | none => exact helement
    | some gap => exact helement.append (strip_comma.cons (strip_gap gap))
  | more head v after rest ih ihRest =>
    exact (((strip_head head).append ih).append (strip_gap after)).append (strip_comma.cons ihRest)

theorem strip_document (d : Document) : stripJSONC d.render = d.uncommented.render := by
  have hbody := ((strip_gap d.before).append (strip_tree d.root)).append (strip_gap d.after)
  have hrender : d.uncommented.render = Gap.render (Gap.spaces d.before) ++
      d.root.uncommented.render ++ Gap.render (Gap.spaces d.after) ++ [] := rfl
  rw [Document.render, hbody, hrender]
  cases hcomment : d.comment with
  | none => rfl
  | some c => exact congrArg _ (strip_open_comment c.oneLine)

theorem dropWhile_space {gap t : Bytes} (h : ∀ b ∈ gap, isSpace b = true) :
    (gap ++ t).dropWhile isSpace = t.dropWhile isSpace :=
  List.dropWhile_append_of_pos h

theorem closesNext_start {gap t : Bytes} (h : ∀ b ∈ gap, isSpace b = true) (ht : Starts t) :
    closesNext (gap ++ t) = false := by
  obtain ⟨b, rest, rfl, hspace, hbracket⟩ := ht
  rw [closesNext, dropWhile_space h, List.dropWhile_cons_of_neg (by rw [hspace]; decide)]
  exact hbracket

theorem closesNext_closing {gap : Bytes} (h : ∀ b ∈ gap, isSpace b = true) (k : Kind)
    (rest : Bytes) : closesNext (gap ++ k.closing :: rest) = true := by
  rw [closesNext, dropWhile_space h]
  cases k with
  | array => rfl
  | object => rfl

theorem remove_string (s : StringLiteral) : Passes removeTrailingCommas s.render s.render :=
  remove_copies.string s

theorem remove_quiet {b : UInt8} (h : isQuiet b = true) : Passes removeTrailingCommas [b] [b] :=
  remove_copies.quietByte h

theorem remove_gap {g : Gap} (h : Gap.IsPlain g) :
    Passes removeTrailingCommas (Gap.render g) (Gap.render g) :=
  remove_copies.quietBytes fun b hb => isQuiet_of_isSpace (h.render b hb)

theorem remove_head {k : Kind} {head : Head k} (h : head.IsPlain) :
    Passes removeTrailingCommas head.render head.render := by
  cases head with
  | element before => exact remove_gap h
  | member before key between after =>
    exact (((remove_gap h.1).append (remove_string key)).append (remove_gap h.2.1)).append
      ((remove_quiet (b := colon) rfl).cons (remove_gap h.2.2))

/-- A comma that a closing bracket follows is dropped, the white space behind it stays. -/
theorem remove_trailing {gap : Gap} (h : Gap.IsPlain gap) (k : Kind) :
    Passes removeTrailingCommas (comma :: Gap.render gap ++ [k.closing])
      (Gap.render gap ++ [k.closing]) := by
  intro rest
  have hcloses : closesNext (Gap.render gap ++ [k.closing] ++ rest) = true := by
    rw [List.append_assoc]
    exact closesNext_closing h.render k rest
  have hbody := (remove_gap h).append (remove_quiet (isQuiet_bracket k).2) rest
  rw [List.cons_append, List.cons_append, removeTrailingCommas, removeFrom,
    if_pos ⟨rfl, rfl, hcloses⟩]
  exact hbody

/-- A comma that another element follows stays. -/
theorem remove_separator {k : Kind} {items : Tree (.items k)} (h : items.Uncommented)
    {a b : Bytes} (hitems : Passes removeTrailingCommas (items.render ++ a) b) :
    Passes removeTrailingCommas (comma :: items.render ++ a) (comma :: b) := by
  intro rest
  obtain ⟨gap, tail, htail, hspace, hstart⟩ := items.items_start h (a ++ rest)
  have hcloses : closesNext (items.render ++ a ++ rest) = false := by
    rw [List.append_assoc, htail]
    exact closesNext_start hspace hstart
  rw [List.cons_append, List.cons_append, removeTrailingCommas, removeFrom, if_neg]
  · exact congrArg (comma :: ·) (hitems rest)
  · intro hall
    rw [hcloses] at hall
    cases hall.2.2

theorem remove_tree {p : Part} {t : Tree p} (h : t.Uncommented) :
    Passes removeTrailingCommas (t.render ++ p.closing) (t.untrailed.render ++ p.closing) := by
  induction t with
  | word w => exact (remove_copies.quietBytes (word_quiet w)).append Passes.nil
  | number n =>
    exact (remove_copies.quietBytes
      fun b hb => isQuiet_of_numberByte (n.valid.numberBytes.2 b hb)).append Passes.nil
  | string s => exact (remove_string s).append Passes.nil
  | empty k gap =>
    exact ((remove_quiet (isQuiet_bracket k).1).cons
      ((remove_gap h).append (remove_quiet (isQuiet_bracket k).2))).append Passes.nil
  | full k items ih =>
    exact ((remove_quiet (isQuiet_bracket k).1).cons (ih h)).append Passes.nil
  | @last k head v after trailing ih =>
    obtain ⟨hhead, hv, hafter, htrailing⟩ := h
    have hvalue : Passes removeTrailingCommas v.render v.untrailed.render := by
      simpa only [Part.closing, List.append_nil] using ih hv
    have helement := ((remove_head hhead).append hvalue).append (remove_gap hafter)
    cases trailing with
    | none =>
      have hclosed := helement.append (remove_quiet (isQuiet_bracket k).2)
      simpa only [Tree.render, Tree.untrailed, Option.getD_none, List.append_nil,
        Part.closing] using hclosed
    | some gap =>
      have hclosed := helement.append (remove_trailing (htrailing gap rfl) k)
      simpa only [Tree.render, Tree.untrailed, Option.getD_some, Gap.render_append, Part.closing,
        List.append_assoc, List.cons_append] using hclosed
  | @more k head v after rest ih ihRest =>
    obtain ⟨hhead, hv, hafter, hrest⟩ := h
    have hvalue : Passes removeTrailingCommas v.render v.untrailed.render := by
      simpa only [Part.closing, List.append_nil] using ih hv
    have helement := ((remove_head hhead).append hvalue).append (remove_gap hafter)
    have hclosed := helement.append (remove_separator hrest (ihRest hrest))
    simpa only [Tree.render, Tree.untrailed, List.append_assoc, List.cons_append] using hclosed

theorem remove_document {d : Document} (hbefore : Gap.IsPlain d.before)
    (hroot : d.root.Uncommented) (hafter : Gap.IsPlain d.after) (hcomment : d.comment = none) :
    removeTrailingCommas d.render = d.untrailed.render := by
  have hvalue : Passes removeTrailingCommas d.root.render d.root.untrailed.render := by
    simpa only [Part.closing, List.append_nil] using remove_tree hroot
  have hbody := ((remove_gap hbefore).append hvalue).append (remove_gap hafter) []
  rw [Document.render, hcomment, hbody]
  unfold Document.render Document.untrailed
  rw [hcomment]
  rfl

/-- Cleaning a document gives the plain JSON document without its comments and trailing commas,
which has the same value. A plain document is left as it is. -/
theorem clean_document (d : Document) :
    ∃ plain : Document, cleanJSONC d.render = plain.render ∧ plain.IsPlain ∧
      plain.value = d.value ∧ (d.IsPlain → cleanJSONC d.render = d.render) := by
  have hclean : cleanJSONC d.render = d.uncommented.untrailed.render := by
    rw [cleanJSONC, strip_document]
    exact remove_document (Gap.spaces_isPlain d.before) d.root.uncommented_uncommented
      (Gap.spaces_isPlain d.after) rfl
  refine ⟨d.uncommented.untrailed, hclean, d.clean_isPlain, d.clean_value, ?_⟩
  intro hplain
  rw [hclean, Document.clean_of_isPlain hplain]

-- `[1,/**/]` becomes `[1]`, and `["/*,]"]` stays
example : cleanJSONC [91, 49, 44, 47, 42, 42, 47, 93] = [91, 49, 93] := by decide

example : cleanJSONC [91, 34, 47, 42, 44, 93, 34, 93] = [91, 34, 47, 42, 44, 93, 34, 93] := by
  decide

end PapeSdk
