/-
The lines that pieces are written as, read again. A piece is fit to be
written when nothing in its lines can be mistaken for something else: a
line by itself is no header and is not indented, and the statements of a
context stand each on a line of its own level, their nested lines deeper.

# What is read back

Statements that make up a body come back from their lines
(`takeBody_render`), and pieces come back as the chunks they stand for if
the body of each context ends where its statements end (`Legible`). Fit
pieces do: the piece behind a context begins at the margin, and a blank line
there is followed, if by anything, by something at the margin.
-/
import GridScript.Proofs.Script.Phrases
import GridScript.Script.Normal

namespace GridScript.Script

open Text (IsWord isBlank allBlank Unbroken trimEnd)

-- =========================================================== indentation

theorem indentWidth_cons_of_not_blank {c : Char} {t : Text}
    (h : isBlank c = false) :
    indentWidth (c :: t) = 0 := by
  have hspace : ¬(c == ' ' || c == '\t') = true := by
    intro hc
    simp only [Bool.or_eq_true, beq_iff_eq] at hc
    rcases hc with rfl | rfl <;> cases h
  unfold indentWidth
  rw [List.takeWhile_cons, if_neg hspace]
  rfl

/-- Indentation adds to what a line has of its own. -/
theorem indentWidth_append {spaces : Text}
    (h : ∀ c ∈ spaces, (c == ' ' || c == '\t') = true) (t : Text) :
    indentWidth (spaces ++ t) = spaces.length + indentWidth t := by
  unfold indentWidth
  rw [List.takeWhile_append_of_pos h, List.length_append]

theorem indentWidth_indent (t : Text) :
    indentWidth (indent ++ t) = 4 + indentWidth t :=
  indentWidth_append (List.all_eq_true.1 (by decide)) t

theorem drop_indent (t : Text) : (indent ++ t).drop 4 = t := rfl

theorem allBlank_of_indent {t : Text} :
    allBlank (indent ++ t) = allBlank t := by
  rw [Text.allBlank_append]
  rfl

-- ============================================================ statements

/-- A statement as it stands in a body: its first line is at the margin of
the body and is not blank, its nested lines are deeper, and no line ends
with a blank. -/
structure Statement.Level (s : Statement) : Prop where
  margin : indentWidth s.head = 0
  filled : allBlank s.head = false
  trimmed : trimEnd s.head = s.head
  nested : ∀ l ∈ s.nested, 0 < indentWidth l ∧ trimEnd l = l

instance (s : Statement) : Decidable s.Level :=
  decidable_of_iff (_ ∧ _ ∧ _ ∧ _)
    ⟨fun ⟨hmargin, hfilled, htrimmed, hnested⟩ =>
        ⟨hmargin, hfilled, htrimmed, hnested⟩,
      fun h => ⟨h.margin, h.filled, h.trimmed, h.nested⟩⟩

/-- No line of the statement is blank. -/
theorem Statement.Level.allBlank_eq_false {s : Statement} (h : s.Level) :
    ∀ l ∈ s.lines, allBlank l = false := by
  intro l hl
  rcases List.mem_cons.1 hl with rfl | hl
  · exact h.filled
  · obtain ⟨hwidth, htrimmed⟩ := h.nested l hl
    cases hblank : allBlank l with
    | false => rfl
    | true =>
        rw [Text.trimEnd_eq_nil_iff.2 hblank] at htrimmed
        rw [← htrimmed] at hwidth
        cases hwidth

/-- A statement that is written as it is read: its first line begins and
ends with no blank, and its nested lines are indented and end with none. -/
structure Statement.Settled (s : Statement) : Prop where
  head : ∃ c t, s.head = c :: t ∧ isBlank c = false
  trimmed : trimEnd s.head = s.head
  nested : ∀ l ∈ s.nested, 0 < indentWidth l ∧ trimEnd l = l
  unbroken : ∀ l ∈ s.lines, Unbroken l

namespace Statement.Settled

variable {s : Statement}

theorem level (h : s.Settled) : s.Level := by
  obtain ⟨c, t, hhead, hc⟩ := h.head
  refine ⟨?_, ?_, h.trimmed, h.nested⟩
  · rw [hhead]
    exact indentWidth_cons_of_not_blank hc
  · rw [hhead, Text.allBlank_cons, hc]
    rfl

theorem trimStart_head (h : s.Settled) : Text.trimStart s.head = s.head := by
  obtain ⟨c, t, hhead, hc⟩ := h.head
  rw [hhead]
  exact Text.trimStart_of_head hc

end Statement.Settled

/-- The statements of a body. Behind the first, whose line sets the level,
none begins with a blank of any kind; the first may begin with one that is
no indentation. -/
structure Bodied (ss : List Statement) : Prop where
  level : ∀ s ∈ ss, s.Level
  flush : ∀ s ∈ ss.tail, Text.trimStart s.head = s.head

/-- The indentation of a statement is not part of it. -/
theorem trim_indent {t : Text} (hstart : Text.trimStart t = t)
    (hend : trimEnd t = t) :
    Text.trim (indent ++ t) = t := by
  have hdrop : Text.trimStart (indent ++ t) = t := by
    unfold Text.trimStart at hstart ⊢
    rw [List.dropWhile_append_of_pos (List.all_eq_true.1 (by decide)), hstart]
  unfold Text.trim
  rw [hdrop, hend]

/-- Nested lines are cut off in front of the statements that follow. -/
theorem cutNested_append {nested rest : List Text}
    (h : ∀ l ∈ nested, 0 < indentWidth l ∧ trimEnd l = l) :
    cutNested 4 (nested.map (indent ++ ·) ++ rest)
      = (nested ++ (cutNested 4 rest).1, (cutNested 4 rest).2) := by
  induction nested with
  | nil => rfl
  | cons l nested ih =>
      obtain ⟨hwidth, htrimmed⟩ := h l List.mem_cons_self
      have hrest := ih fun m hm => h m (List.mem_cons_of_mem l hm)
      have hdeeper : 4 < indentWidth (indent ++ l) := by
        rw [indentWidth_indent]
        omega
      rw [List.map_cons, List.cons_append, cutNested, hrest]
      simp only [hdeeper, if_true, drop_indent, htrimmed, List.cons_append]

/-- The statements behind a first one. -/
theorem cutNested_render {ss : List Statement} (hlevel : ∀ s ∈ ss, s.Level)
    (hflush : ∀ s ∈ ss, Text.trimStart s.head = s.head) :
    cutNested 4 (ss.flatMap Statement.render) = ([], ss) := by
  induction ss with
  | nil => rfl
  | cons s ss ih =>
      have hs := hlevel s List.mem_cons_self
      have hhead := trim_indent (hflush s List.mem_cons_self) hs.trimmed
      have hrest := ih (fun m hm => hlevel m (List.mem_cons_of_mem s hm))
        fun m hm => hflush m (List.mem_cons_of_mem s hm)
      have hwidth : ¬4 < indentWidth (indent ++ s.head) := by
        rw [indentWidth_indent, hs.margin]
        omega
      rw [List.flatMap_cons, Statement.render, Statement.lines, List.map_cons,
        List.cons_append, cutNested, cutNested_append hs.nested, hrest]
      simp only [hwidth, if_false, hhead, List.append_nil]

/-- The statements of a body are read back. -/
theorem statementsOf_render {ss : List Statement} (h : Bodied ss) :
    statementsOf (ss.flatMap Statement.render) = ss := by
  cases ss with
  | nil => rfl
  | cons s ss =>
      have hs := h.level s List.mem_cons_self
      have hrest :=
        cutNested_render
          (fun m hm => h.level m (List.mem_cons_of_mem s hm)) h.flush
      have hwidth : indentWidth (indent ++ s.head) = 4 := by
        rw [indentWidth_indent, hs.margin]
      rw [List.flatMap_cons, Statement.render, Statement.lines, List.map_cons,
        List.cons_append, statementsOf]
      simp only [hwidth, drop_indent, cutNested_append hs.nested, hrest,
        hs.trimmed, List.append_nil]

-- ================================================================ bodies

theorem resumes_cons (l : Text) (ls : List Text) :
    resumes (l :: ls) = if allBlank l then resumes ls
      else decide (0 < indentWidth l) := by
  unfold resumes
  rw [List.find?_cons]
  cases allBlank l <;> rfl

theorem resumes_cons_eq_false {l : Text} {ls : List Text}
    (hmargin : allBlank l = true ∨ indentWidth l = 0)
    (h : resumes ls = false) :
    resumes (l :: ls) = false := by
  rw [resumes_cons, h]
  rcases hmargin with hblank | hwidth
  · rw [hblank]
    rfl
  · rw [hwidth]
    exact ite_self false

theorem suffix_cutBody (ls : List Text) : (cutBody ls).2 <:+ ls := by
  fun_induction cutBody ls with
  | case1 => exact List.suffix_refl _
  | case2 l ls _ _ ih => exact ih.trans (List.suffix_cons l ls)
  | case3 => exact List.suffix_refl _
  | case4 => exact List.suffix_refl _
  | case5 l ls _ _ body rest heq ih =>
      rw [heq] at ih
      exact ih.trans (List.suffix_cons l ls)

/-- No body begins where the next line that is not blank is at the margin. -/
theorem cutBody_of_resumes_eq_false {ls : List Text} (h : resumes ls = false) :
    cutBody ls = ([], ls) := by
  cases ls with
  | nil => rfl
  | cons l ls =>
      rw [resumes_cons] at h
      rw [cutBody]
      cases hblank : allBlank l with
      | true =>
          rw [hblank, if_pos rfl] at h
          simp only [h, if_true, Bool.false_eq_true, if_false]
      | false =>
          rw [hblank, if_neg Bool.false_ne_true, decide_eq_false_iff_not,
            Nat.not_lt, Nat.le_zero] at h
          simp only [h, Bool.false_eq_true, if_false, if_true]

/-- Lines that can only stand in a body are part of it. -/
theorem cutBody_append {body : List Text}
    (hbody : ∀ l ∈ body, allBlank l = false ∧ 0 < indentWidth l)
    (rest : List Text) :
    cutBody (body ++ rest) = (body ++ (cutBody rest).1, (cutBody rest).2) := by
  induction body with
  | nil => rfl
  | cons l body ih =>
      obtain ⟨hblank, hwidth⟩ := hbody l List.mem_cons_self
      have htail := ih fun m hm => hbody m (List.mem_cons_of_mem l hm)
      rw [List.cons_append, cutBody, htail]
      simp only [hblank, Bool.false_eq_true, if_false, Nat.ne_of_gt hwidth,
        List.cons_append]

theorem body_render {ss : List Statement} (h : ∀ s ∈ ss, s.Level) :
    ∀ l ∈ ss.flatMap Statement.render, allBlank l = false
      ∧ 0 < indentWidth l := by
  intro l hl
  obtain ⟨s, hs, hl⟩ := List.mem_flatMap.1 hl
  obtain ⟨m, hm, rfl⟩ := List.mem_map.1 hl
  rw [allBlank_of_indent, indentWidth_indent]
  exact ⟨(h s hs).allBlank_eq_false m hm, by omega⟩

/-- The statements of a body come back from their lines, and the body ends
behind them unless what follows goes on with it. -/
theorem takeBody_render {ss : List Statement} (h : Bodied ss)
    {below : List Text} (hbelow : resumes below = false) :
    takeBody (ss.flatMap Statement.render ++ below) = (ss, below) := by
  unfold takeBody
  rw [cutBody_append (body_render h.level), cutBody_of_resumes_eq_false hbelow]
  simp only [List.append_nil, statementsOf_render h]

-- ======================================================= what is read back

/-- What a piece is read as. -/
def Piece.chunk : Piece → Chunk
  | line l => .line l
  | context c => .context ⟨.name (tableAlias c.table), c.region⟩ c.statements

theorem allBlank_headerLine (id : Text) (region : Region) :
    allBlank (headerLine id region) = false := by
  unfold headerLine
  split <;> rfl

theorem indentWidth_headerLine (id : Text) (region : Region) :
    indentWidth (headerLine id region) = 0 := by
  unfold headerLine
  split <;> rfl

/-- Above a header every body ends. -/
theorem resumes_context (c : Context) (ps : List Piece) :
    resumes ((Piece.context c :: ps).flatMap Piece.render) = false := by
  rw [List.flatMap_cons, Piece.render, List.cons_append, resumes_cons,
    allBlank_headerLine, indentWidth_headerLine]
  rfl

/-- A line that a log keeps whole: it has no line feed and ends with no
carriage return. -/
def Whole (l : Text) : Prop := '\n' ∉ l ∧ l.getLast? ≠ some '\r'

instance (l : Text) : Decidable (Whole l) :=
  inferInstanceAs (Decidable (_ ∧ _))

theorem whole_of_unbroken {l : Text} (h : Unbroken l) : Whole l :=
  ⟨h.1, fun hlast => h.2 (List.mem_of_getLast? hlast)⟩

/-- A line without a line feed that ends with no blank. -/
theorem whole_of_trimEnd {l : Text} (hfeed : '\n' ∉ l) (h : trimEnd l = l) :
    Whole l := by
  refine ⟨hfeed, fun hlast => ?_⟩
  rw [← h] at hlast
  cases Text.isBlank_getLast_trimEnd hlast

theorem whole_indent {l : Text} (h : Whole l) : Whole (indent ++ l) := by
  refine ⟨?_, ?_⟩
  · rw [List.mem_append]
    exact fun hfeed => hfeed.elim (by decide) h.1
  · cases l with
    | nil => decide
    | cons c t =>
        have hlast : (indent ++ c :: t).getLast? = (c :: t).getLast? := by
          rw [List.getLast?_append, List.getLast?_cons]
          rfl
        rw [hlast]
        exact h.2

/-- A statement that is read back wherever it stands in a body. -/
structure Statement.Legible (s : Statement) : Prop extends s.Level where
  flush : Text.trimStart s.head = s.head
  feed : ∀ l ∈ s.lines, '\n' ∉ l

instance (s : Statement) : Decidable s.Legible :=
  decidable_of_iff (s.Level ∧ _ ∧ _)
    ⟨fun ⟨hlevel, hflush, hfeed⟩ => ⟨hlevel, hflush, hfeed⟩,
      fun h => ⟨h.toLevel, h.flush, h.feed⟩⟩

theorem Statement.Settled.legible {s : Statement} (h : s.Settled) :
    s.Legible where
  toLevel := h.level
  flush := h.trimStart_head
  feed l hl := (h.unbroken l hl).1

theorem Statement.Legible.whole {s : Statement} (h : s.Legible) :
    ∀ l ∈ s.lines, Whole l := by
  intro l hl
  refine whole_of_trimEnd (h.feed l hl) ?_
  rcases List.mem_cons.1 hl with rfl | hl
  · exact h.trimmed
  · exact (h.nested l hl).2

theorem bodied_of_legible {ss : List Statement} (h : ∀ s ∈ ss, s.Legible) :
    Bodied ss where
  level s hs := (h s hs).toLevel
  flush s hs := (h s (List.mem_of_mem_tail hs)).flush

/-- Pieces that are read back: lines by themselves are no headers, and
nothing behind a context goes on with its body. -/
def Legible : List Piece → Prop
  | [] => True
  | .line l :: ps => (Whole l ∧ header? (tokens l) = none) ∧ Legible ps
  | .context c :: ps =>
    (∀ s ∈ c.statements, s.Legible)
      ∧ resumes (ps.flatMap Piece.render) = false ∧ Legible ps

instance decidableLegible : ∀ ps : List Piece, Decidable (Legible ps)
  | [] => isTrue trivial
  | .line _ :: ps =>
    have := decidableLegible ps
    inferInstanceAs (Decidable (_ ∧ _))
  | .context _ :: ps =>
    have := decidableLegible ps
    inferInstanceAs (Decidable (_ ∧ _ ∧ _))

theorem chunks_line {l : Text} (h : header? (tokens l) = none)
    (ls : List Text) :
    chunks (l :: ls) = .line l :: chunks ls := by
  rw [chunks, h]

theorem chunks_blank : chunks [[]] = [.line []] := by
  rw [chunks_line (by rw [tokens_nil]; rfl), chunks]

theorem chunks_header {l : Text} {header : Header}
    (h : header? (tokens l) = some header) (ls : List Text) :
    chunks (l :: ls)
      = .context header (takeBody ls).1 :: chunks (takeBody ls).2 := by
  rw [chunks, h]

/-- Legible pieces are read back as the chunks they stand for. -/
theorem Legible.chunks {ps : List Piece} (h : Legible ps) :
    Script.chunks (ps.flatMap Piece.render) = ps.map Piece.chunk := by
  induction ps with
  | nil => rw [List.flatMap_nil, Script.chunks]; rfl
  | cons p ps ih =>
      cases p with
      | line l =>
          obtain ⟨⟨-, hheader⟩, hps⟩ := h
          rw [List.flatMap_cons, Piece.render, List.singleton_append,
            chunks_line hheader, ih hps]
          rfl
      | context c =>
          obtain ⟨hstatements, hbelow, hps⟩ := h
          have hbody := takeBody_render (bodied_of_legible hstatements) hbelow
          rw [List.flatMap_cons, Piece.render, List.cons_append,
            chunks_header (header?_headerLine c.table c.region), hbody, ih hps]
          rfl

-- ============================================================= fit pieces

/-- A line that is read as a line: it is no header, and it is blank or
stands at the margin. -/
structure PlainLine (l : Text) : Prop where
  unbroken : Unbroken l
  margin : allBlank l = true ∨ indentWidth l = 0
  header : header? (tokens l) = none

/-- A piece that is written as it is read. -/
def Piece.Fit : Piece → Prop
  | line l => PlainLine l
  | context c => c.statements ≠ [] ∧ ∀ s ∈ c.statements, s.Settled

/-- Behind blank lines, too, pieces begin at the margin. -/
theorem resumes_render {ps : List Piece} (h : ∀ p ∈ ps, p.Fit) :
    resumes (ps.flatMap Piece.render) = false := by
  induction ps with
  | nil => rfl
  | cons p ps ih =>
      have hrest := ih fun q hq => h q (List.mem_cons_of_mem p hq)
      cases p with
      | line l =>
          have hline : PlainLine l := h _ List.mem_cons_self
          rw [List.flatMap_cons, Piece.render, List.singleton_append]
          exact resumes_cons_eq_false hline.margin hrest
      | context c => exact resumes_context c ps

theorem legible_of_fit {ps : List Piece} (h : ∀ p ∈ ps, p.Fit) :
    Legible ps := by
  induction ps with
  | nil => trivial
  | cons p ps ih =>
      obtain ⟨hp, hps⟩ := List.forall_mem_cons.1 h
      cases p with
      | line l =>
          have hline : PlainLine l := hp
          exact ⟨⟨whole_of_unbroken hline.unbroken, hline.header⟩, ih hps⟩
      | context c =>
          exact ⟨fun s hs => (hp.2 s hs).legible, resumes_render hps, ih hps⟩

/-- Fit pieces are read back as the chunks they stand for. -/
theorem chunks_render {ps : List Piece} (h : ∀ p ∈ ps, p.Fit) :
    chunks (ps.flatMap Piece.render) = ps.map Piece.chunk :=
  (legible_of_fit h).chunks

end GridScript.Script
