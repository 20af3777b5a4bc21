/-
The normal form of a steady log, read again. A log and its normal form are
both read line by line, and what the one does is what the other does: every
statement is written to its object, and every method is called of it
(`deeds_normalize`).

# What is read back

The pieces of the normal form are read back from its lines as long as no
context is followed by a line that goes on with its body (`Legible`). A
context is written for a context, or behind a line that names a table with
literals; so it is enough that no indented line stands there, blank lines
and declarations apart (`Detached`). An induction on the course of writing
shows this of the pieces (`Course.legible`), and joined contexts end where
the last of them did. Where an indented line does stand there, it becomes a
part of the context, and what it calls is called no more
(`not_sameDeeds_tornLoop`).
-/
import GridScript.Proofs.Script.Bodies
import GridScript.Proofs.Script.Log
import GridScript.Proofs.Script.Steady

namespace GridScript.Script

open Text (Unbroken allBlank trimEnd)

-- ========================================================= legible blocks

/-- A chunk that is read back: its line is kept whole and is no header, and
its statements are legible. -/
def Chunk.Legible : Chunk → Prop
  | line l => Whole l ∧ header? (tokens l) = none
  | context _ body => ∀ s ∈ body, s.Legible

/-- A block that is read back. -/
def Block.Legible : Block → Prop
  | context _ _ statements => ∀ s ∈ statements, s.Legible
  | b => ∀ l ∈ b.line?, Whole l ∧ header? (tokens l) = none

/-- The chunks of lines without line feeds. -/
theorem legible_chunks {ls : List Text} (hfeed : ∀ l ∈ ls, '\n' ∉ l)
    (hplain : ∀ c ∈ chunks ls, c.Plain) : ∀ c ∈ chunks ls, c.Legible := by
  fun_induction chunks ls with
  | case1 => exact List.forall_mem_nil _
  | case2 l ls header hheader ih =>
      obtain ⟨hl, hls⟩ := List.forall_mem_cons.1 hfeed
      obtain ⟨hbody, hrest⟩ := List.forall_mem_cons.1 hplain
      refine List.forall_mem_cons.2 ⟨fun s hs => ?_, ih ?_ hrest⟩
      · exact ⟨(bodied_takeBody ls).level s hs, hbody s hs,
          no_feed_takeBody hls hs⟩
      · exact fun m hm => hls m ((suffix_cutBody ls).subset hm)
  | case3 l ls hheader ih =>
      obtain ⟨hl, hls⟩ := List.forall_mem_cons.1 hfeed
      obtain ⟨hline, hrest⟩ := List.forall_mem_cons.1 hplain
      exact List.forall_mem_cons.2 ⟨⟨⟨hl, hline⟩, hheader⟩, ih hls hrest⟩

/-- A line that gives a name away is no header. -/
theorem header?_of_given? {l : Text} {g : Giving} (h : given? l = some g) :
    header? (tokens l) = none := by
  cases hheader : header? (tokens l) with
  | none => rfl
  | some header =>
      rw [given?_of_header? hheader] at h
      cases h

/-- The line of a creation ends with its call. -/
theorem whole_creation {l : Text} {c : Creation} (hfeed : '\n' ∉ l)
    (h : creation? (tokens l) = some c) :
    Whole (c.binding.getD (tableAlias c.table) ++ " = ".toList ++ c.call) := by
  obtain ⟨-, -, hlast, -⟩ := creation?_eq_some_iff.1 h
  refine ⟨?_, ?_⟩
  · rw [List.mem_append, List.mem_append]
    rintro ((hname | hequals) | hcall)
    · exact (isWord_binding h).unbroken.1 hname
    · exact absurd hequals (by decide)
    · exact hfeed (call_subset h hcall)
  · rw [List.getLast?_append, hlast, Option.some_or]
    decide

theorem legible_blockOf (n : Names) {c : Chunk} (h : c.Legible) :
    (blockOf n c).1.Legible := by
  cases c with
  | context header body =>
      rw [blockOf_header]
      exact h
  | line l =>
      obtain ⟨hwhole, hheader⟩ := h
      have htold := told_blockOf n (.line l)
      show (blockOf n (Piece.line l).chunk).1.Legible
      rcases Piece.cases_line l
        with ⟨c, hc⟩ | ⟨name, table, hd⟩ | ⟨hcreation, hdeclaration⟩
      -- a creation is bound to a name, which no header begins with
      · rw [blockOf_creation hc]
        rintro _ ⟨⟩
        refine ⟨whole_creation hwhole.1 hc, ?_⟩
        have hread := creation?_rebound (reads_tokens l) hc (isWord_binding hc)
        exact header?_of_given? (given?_of_creation? hread)
      -- a declaration loses the blanks at its end
      · rw [blockOf_declaration hd]
        rintro _ ⟨⟩
        refine ⟨whole_of_trimEnd ?_ (Text.trimEnd_trimEnd l), ?_⟩
        · exact fun hfeed => hwhole.1 (Text.trimEnd_subset l hfeed)
        · exact header?_of_given?
            (given?_of_declaration? (declaration?_trimEnd hd))
      · rw [blockOf_line hcreation hdeclaration]
        rintro _ ⟨⟩
        exact ⟨hwhole, hheader⟩

theorem Block.Legible.line {b : Block} {l : Text} (h : b.Legible)
    (own : b.line? = some l) : Whole l ∧ header? (tokens l) = none := by
  cases b with
  | context => cases own
  | _ => exact h l own

theorem legible_blocksOf (n : Names) {cs : List Chunk}
    (h : ∀ c ∈ cs, c.Legible) : ∀ b ∈ (blocksOf n cs).1, b.Legible := by
  induction cs generalizing n with
  | nil => exact List.forall_mem_nil _
  | cons c cs ih =>
      obtain ⟨hc, hcs⟩ := List.forall_mem_cons.1 h
      rw [blocksOf_cons]
      exact List.forall_mem_cons.2 ⟨legible_blockOf n hc, ih _ hcs⟩

theorem legible_withoutData {b : Block} (h : b.Legible) :
    b.withoutData.Legible := by
  cases b with
  | context table region statements =>
      cases region with
      | body => exact fun s hs => h s (List.mem_filter.1 hs).1
      | _ => exact h
  | _ => exact h

theorem legible_of_mem_dataOf {bs : List Block} (h : ∀ b ∈ bs, b.Legible)
    {table : Text} : ∀ s ∈ dataOf bs table, s.Legible := by
  intro s hs
  obtain ⟨b, hb, hs⟩ := List.mem_flatMap.1 hs
  cases b with
  | context t region statements =>
      cases region with
      | body =>
          simp only [Block.data] at hs
          split at hs
          case isTrue => exact h _ hb s (List.mem_filter.1 hs).1
          case isFalse => cases hs
      | _ => cases hs
  | _ => cases hs

/-- Where literals are put makes no difference to what they stand behind. -/
theorem detached_withoutData {plan : Plan} {above : Bool} {bs : List Block}
    (h : Detached plan above bs) :
    Detached plan above (bs.map Block.withoutData) := by
  induction bs generalizing above with
  | nil => trivial
  | cons b bs ih =>
      cases b with
      | context table region statements =>
          cases region <;> exact ⟨h.1, ih h.2⟩
      | _ => exact ⟨h.1, ih h.2⟩

-- ============================================================= in a course

section

variable {plan : Plan} {last : Option Block} {bound : Aliases}
  {owed : Text → List Statement} {bs : List Block} {out : List Piece}

/-- Literals that are due may be written behind the block. -/
theorem owes_of_ne_nil {table : Text} (h : plan.data table ≠ []) :
    owes plan (some table) = true := by
  simpa [owes] using h

theorem trails_of_names? {b : Block} {table : Text}
    (hnames : b.names? = some table) (hdata : plan.data table ≠ [])
    (above : Bool) : b.trails plan above = true := by
  have howes := owes_of_ne_nil hdata
  cases b with
  | context => cases hnames
  | line l mention =>
      obtain rfl : mention = some table := hnames
      simp [Block.trails, howes]
  | creation binding t call =>
      obtain rfl : t = table := Option.some.inj hnames
      exact howes
  | declaration name t l =>
      obtain rfl : t = table := Option.some.inj hnames
      simp [Block.trails, howes]

/-- Behind a line that may stand behind a context, what was not resumed is
not resumed. -/
theorem resumes_kept {b : Block} {l : Text} (own : b.line? = some l)
    (hl : allBlank l = true ∨ indentWidth l = 0) {ls : List Text}
    (hrest : b.trails plan true = true → resumes ls = false) :
    resumes (l :: ls) = false := by
  rw [resumes_cons]
  split
  case isFalse hfilled =>
      rw [hl.resolve_left (by simpa using hfilled)]
      rfl
  case isTrue hblank =>
      -- only lines are blank, and behind them nothing has changed
      refine hrest ?_
      cases b with
      | context => cases own
      | line m mention =>
          cases own
          simp [Block.trails, hblank]
      | declaration => rfl
      | creation binding table call =>
          cases own
          rw [Text.allBlank_append, Text.allBlank_append, Bool.and_eq_true,
            Bool.and_eq_true] at hblank
          exact absurd hblank.1.2 (by decide)

/-- What is written in a course is legible, and does not go on with a
context that stands above. -/
theorem Course.legible
    (h : Course plan.bindable plan.created last bound owed bs out)
    (hblocks : ∀ b ∈ bs, b.Legible) (howed : ∀ t, ∀ s ∈ owed t, s.Legible)
    (hdata : ∀ t, owed t ≠ [] → plan.data t ≠ []) {above : Bool}
    (hlast : ∀ b ∈ last, ∀ t, b.names? = some t → owed t ≠ [] → above = true)
    (hdetached : Detached plan above bs) :
    Legible out
      ∧ (above = true ∨ (∃ b ∈ bs.head?, b.line? = none) →
        resumes (out.flatMap Piece.render) = false) := by
  -- `above` says that a context may stand right above what is written next
  induction h generalizing above with
  | done => exact ⟨trivial, fun _ => rfl⟩
  | @binding _ _ _ _ c out _ _ _ _ rest ih =>
      obtain ⟨hout, -⟩ := ih hblocks howed hdata hlast hdetached
      have hline := plainLine_bindingLine c.table
      exact ⟨⟨⟨whole_of_unbroken hline.unbroken, hline.header⟩, hout⟩,
        fun _ => resumes_cons_eq_false hline.margin (resumes_context c out)⟩
  | @literals _ _ owed bs table out due place _ rest ih =>
      obtain ⟨hout, hend⟩ := ih hblocks
        (fun t s hs => by
          by_cases ht : t = table
          · rw [ht, paid_self] at hs
            cases hs
          · rw [paid_of_ne owed ht] at hs
            exact howed t s hs)
        (fun t hdue => hdata t (owed_of_paid hdue))
        (fun b hb t hnames hdue => hlast b hb t hnames (owed_of_paid hdue))
        hdetached
      refine ⟨⟨howed table, hend ?_, hout⟩, fun _ => resumes_context _ out⟩
      rcases place with ⟨-, b, hb, hnames⟩ | ⟨b, hb, hon⟩
      · exact Or.inl (hlast b hb table hnames due)
      · refine Or.inr ⟨b, hb, ?_⟩
        cases b with
        | context => rfl
        | _ => cases hon
  | @kept _ _ owed b l bs out own rest ih =>
      obtain ⟨hb, hbs⟩ := List.forall_mem_cons.1 hblocks
      obtain ⟨hl, hrest⟩ := hdetached
      obtain ⟨hout, hend⟩ := ih hbs howed hdata
        (fun b' hb' t hnames hdue => by
          cases hb'
          exact trails_of_names? hnames (hdata t hdue) above)
        hrest
      refine ⟨⟨hb.line own, hout⟩, ?_⟩
      rintro (habove | ⟨b', hb', hnone⟩)
      -- a context stands right above, so the line must not go on with its body
      · subst habove
        exact resumes_kept own (hl l own rfl) fun htrails =>
          hend (Or.inl htrails)
      · cases hb'
        rw [own] at hnone
        cases hnone
  | @redundant _ _ owed table l bs out _ rest ih =>
      obtain ⟨hout, hend⟩ := ih (List.forall_mem_cons.1 hblocks).2 howed hdata
        (fun b' hb' t hnames hdue => by
          cases hb'
          exact trails_of_names? hnames (hdata t hdue) above)
        hdetached.2
      refine ⟨hout, ?_⟩
      rintro (habove | ⟨b', hb', hnone⟩)
      -- the dropped line leaves what stood above it above
      · refine hend (Or.inl ?_)
        rw [habove]
        rfl
      · cases hb'
        cases hnone
  | context _ _ rest ih =>
      obtain ⟨hb, hbs⟩ := List.forall_mem_cons.1 hblocks
      obtain ⟨hout, hend⟩ := ih hbs howed hdata (by rintro b' ⟨⟩ t ⟨⟩)
        hdetached.2
      exact ⟨⟨hb, hend (Or.inl rfl), hout⟩, fun _ => resumes_context _ _⟩
  | empty _ rest ih =>
      obtain ⟨hout, hend⟩ := ih (List.forall_mem_cons.1 hblocks).2 howed hdata
        (by rintro b' ⟨⟩ t ⟨⟩) hdetached.2
      exact ⟨hout, fun _ => hend (Or.inl rfl)⟩

end

/-- Joined pieces are as legible as they were. -/
theorem Legible.joinPieces {ps : List Piece} (h : Legible ps) :
    Legible (joinPieces ps) := by
  -- what stands at the beginning is a header still, or what it was
  refine (joinPieces_induction (motive := fun ps qs => Legible ps →
    Legible qs ∧ resumes (qs.flatMap Piece.render)
      = resumes (ps.flatMap Piece.render)) (fun h => ⟨h, rfl⟩) ?_ ?_ ps h).1
  · intro p ps qs ih h
    cases p with
    | line l =>
        obtain ⟨hqs, hend⟩ := ih h.2
        refine ⟨⟨h.1, hqs⟩, ?_⟩
        show resumes (l :: qs.flatMap Piece.render)
          = resumes (l :: ps.flatMap Piece.render)
        rw [resumes_cons, resumes_cons, hend]
    | context c =>
        obtain ⟨hqs, hend⟩ := ih h.2.2
        refine ⟨⟨h.1, hend.trans h.2.1, hqs⟩, ?_⟩
        rw [resumes_context, resumes_context]
  · intro c d ps qs _ ih h
    obtain ⟨⟨hc, -, hd, hbelow, hqs⟩, hend⟩ := ih h
    refine ⟨⟨?_, hbelow, hqs⟩, ?_⟩
    · intro s hs
      exact (List.mem_append.1 hs).elim (hc s) (hd s)
    · rw [← hend, resumes_context, resumes_context]

-- ================================================================== logs

theorem no_feed_flatLines (log : List Text) :
    ∀ l ∈ flatLines log, '\n' ∉ l := by
  intro l hl hfeed
  obtain ⟨part, hpart, rfl⟩ := List.mem_map.1 hl
  obtain ⟨line, -, hpart⟩ := List.mem_flatMap.1 hpart
  refine Text.not_mem_of_mem_splitOn hpart ?_
  rcases Text.dropLast_cases '\r' part with hsame | ⟨rest, hend, hcut⟩
  · rw [← hsame]
    exact hfeed
  · rw [hcut] at hfeed
    rw [hend]
    exact List.mem_append_left _ hfeed

/-- The lines of legible pieces are kept whole. -/
theorem Legible.whole {ps : List Piece} (h : Legible ps) :
    ∀ l ∈ ps.flatMap Piece.render, Whole l := by
  induction ps with
  | nil => exact List.forall_mem_nil _
  | cons p ps ih =>
      intro l hl
      rw [List.flatMap_cons, List.mem_append] at hl
      cases p with
      | line m =>
          rcases hl with hl | hl
          · rw [List.mem_singleton.1 hl]
            exact h.1.1
          · exact ih h.2 l hl
      | context c =>
          obtain ⟨hstatements, -, hps⟩ := h
          rcases hl with hl | hl
          · rcases List.mem_cons.1 hl with rfl | hl
            · exact whole_of_unbroken (unbroken_headerLine c.table c.region)
            · obtain ⟨st, hst, hl⟩ := List.mem_flatMap.1 hl
              obtain ⟨m, hm, rfl⟩ := List.mem_map.1 hl
              exact whole_indent ((hstatements st hst).whole m hm)
          · exact ih hps l hl

/-- The pieces of a steady log are legible. -/
theorem Steady.legible {log : List Text} (h : Steady log) :
    Legible (logPieces log) := by
  unfold logPieces
  split
  case isTrue => trivial
  case isFalse =>
      obtain ⟨out, hjoined, hcourse⟩ := exists_course (flatLines log)
      have hchunks := legible_chunks (no_feed_flatLines log) h.plain
      have hblocks : ∀ b ∈ (parseBlocks (flatLines log)).1, b.Legible :=
        legible_blocksOf .none hchunks
      have hwritten : ∀ b ∈ (parseBlocks (flatLines log)).1.map
          Block.withoutData, b.Legible := by
        intro b' hb'
        obtain ⟨b, hb, rfl⟩ := List.mem_map.1 hb'
        exact legible_withoutData (hblocks b hb)
      have hdetached := detached_withoutData h.detached
      have hout : Legible out :=
        (Course.legible hcourse hwritten
          (fun t => legible_of_mem_dataOf hblocks) (fun _ hdue => hdue)
          (by rintro b ⟨⟩) hdetached).1
      rw [hjoined]
      exact hout.joinPieces

/-- The text of legible pieces is read as those pieces. -/
theorem Legible.chunks_flatLines {ps : List Piece} (h : Legible ps)
    {log : List Text} (htext : log = ps.flatMap Piece.render) :
    Script.chunks (flatLines log) = ps.map Piece.chunk := by
  rw [htext, flatLines_of_whole h.whole, h.chunks]

/-- A steady log does in its normal form what it does as it stands: everything
but literals is done to the same objects in the same order, and the literals
of each object are the same and in the same order. -/
theorem deeds_normalize {log : List Text} (h : Steady log) :
    SameDeeds (deedsIn log) (deedsIn (normalize log)) := by
  unfold deedsIn
  rw [h.legible.chunks_flatLines (normalize_eq log), logPieces]
  split
  case isFalse => exact sameDeeds_piecesOf h.names
  case isTrue hempty =>
      -- nothing is done in an empty log
      have hnone : chunkDeeds (chunks (flatLines log)) = [] := by
        rcases hempty with hlines | hlines
        · rw [hlines, chunks]
          rfl
        · have hreceiver : receiverOf? [] = none := by
            unfold receiverOf?
            rw [tokens_nil]
            rfl
          rw [hlines, chunks_blank, chunkDeeds, deedsOf, deedsOf, Chunk.deeds,
            hreceiver]
          rfl
      rw [hnone]
      exact ⟨rfl, fun _ => rfl⟩

/-- A log with two tables of one local name, each with a method called, a
header's name that is never given away, and another one that is no
header's. -/
def takenTurns : List Text :=
  ["np.seed(1)".toList, "a_b = proj.table('a b')".toList,
    "with table_context(a_b):".toList, "    b0 = a0 + 1".toList,
    "    a0 = 1".toList, "a_b.minimize()".toList,
    "a_b = proj.table('a-b')".toList, "a_b.minimize()".toList,
    "with table_context(x):".toList, "    a0 = 2".toList,
    "x.minimize()".toList]

theorem deeds_normalize_takenTurns :
    Steady takenTurns
      ∧ SameDeeds (deedsIn takenTurns) (deedsIn (normalize takenTurns)) := by
  have hlegible : Legible
      [.line "np.seed(1)".toList, .line (bindingLine "a b".toList),
        .context ⟨"a b".toList, .body, false,
          [⟨"b0 = a0 + 1".toList, []⟩, ⟨"a0 = 1".toList, []⟩]⟩,
        .line "a_b.minimize()".toList, .line (bindingLine "a-b".toList),
        .line "a_b.minimize()".toList,
        .context ⟨"x".toList, .body, false, [⟨"a0 = 2".toList, []⟩]⟩,
        .line "x.minimize()".toList] := by
    decide +kernel
  have hchunks := hlegible.chunks_flatLines
    (show takenTurns = _ by decide +kernel)
  have hsteady : Steady takenTurns := by
    constructor
    · rw [hchunks]
      decide +kernel
    · rw [hchunks]
      decide +kernel
    · rw [parseBlocks, hchunks]
      decide +kernel
  exact ⟨hsteady, deeds_normalize hsteady⟩

/-- A log that gives the name of a table to something else, and then writes
under that name. -/
def givenAgain : List Text :=
  ["t = proj.table('x')".toList, "t = first_table(proj)".toList,
    "with table_context(t):".toList, "    c0 = a0 + 1".toList]

/-- What it writes is redirected to the table. -/
theorem not_sameDeeds_givenAgain :
    ¬ SameDeeds (deedsIn givenAgain) (deedsIn (normalize givenAgain)) := by
  have hlegible : Legible
      [.line "t = proj.table('x')".toList,
        .line "t = first_table(proj)".toList,
        .context ⟨"t".toList, .body, false,
          [⟨"c0 = a0 + 1".toList, []⟩]⟩] := by
    decide +kernel
  have hchunks := hlegible.chunks_flatLines
    (show givenAgain = _ by decide +kernel)
  -- the header is resolved to the table that the name was given to first
  have hpieces : logPieces givenAgain
      = [.line "t = proj.table('x')".toList,
        .line "t = first_table(proj)".toList, .line (bindingLine "x".toList),
        .context ⟨"x".toList, .body, false,
          [⟨"c0 = a0 + 1".toList, []⟩]⟩] := by
    rw [logPieces, if_neg (by decide), piecesOf_eq, parseBlocks, hchunks]
    decide +kernel
  have hnormal : Legible (logPieces givenAgain) := by
    rw [hpieces]
    decide +kernel
  have hread := hnormal.chunks_flatLines (normalize_eq givenAgain)
  intro h
  have hothers := h.others
  unfold deedsIn at hothers
  rw [hread, hpieces, hchunks] at hothers
  revert hothers
  decide +kernel

/-- A loop whose first line refers to a table with literals. -/
def tornLoop : List Text :=
  ["for i in range(2):".toList, "    proj.table('x').resize(1, 1)".toList,
    "        foo.bar()".toList, "with table_context('x'):".toList,
    "    a0 = 1".toList]

/-- Its second line goes on with the context that the literals are put in,
though names are read alike. -/
theorem not_sameDeeds_tornLoop :
    SteadyChunks (chunks (flatLines tornLoop))
      ∧ ¬ SameDeeds (deedsIn tornLoop) (deedsIn (normalize tornLoop)) := by
  have hchunks : chunks (flatLines tornLoop)
      = [.line "for i in range(2):".toList,
        .line "    proj.table('x').resize(1, 1)".toList,
        .line "        foo.bar()".toList,
        .context ⟨.id "x".toList, .body⟩ [⟨"a0 = 1".toList, []⟩]] := by
    have hflat : flatLines tornLoop = tornLoop := by decide
    have hloop : header? (tokens "for i in range(2):".toList) = none := by
      decide +kernel
    have hresize :
        header? (tokens "    proj.table('x').resize(1, 1)".toList)
          = none := by decide +kernel
    have hcall : header? (tokens "        foo.bar()".toList) = none := by
      decide +kernel
    have hheader : header? (tokens "with table_context('x'):".toList)
        = some ⟨.id "x".toList, .body⟩ := by decide +kernel
    have hbody : takeBody ["    a0 = 1".toList]
        = ([⟨"a0 = 1".toList, []⟩], []) := by decide
    rw [hflat, tornLoop, chunks_line hloop, chunks_line hresize,
      chunks_line hcall, chunks_header hheader, hbody, chunks]
  have hnormal : normalize tornLoop
      = ["for i in range(2):".toList,
        "    proj.table('x').resize(1, 1)".toList,
        "x = proj.table('x')".toList, "with table_context(x):".toList,
        "    a0 = 1".toList, "        foo.bar()".toList] := by
    rw [normalize_eq, logPieces, if_neg (by decide), piecesOf_eq,
      parseBlocks, hchunks]
    decide +kernel
  -- read again, the call stands in the context
  have habsorbed : Legible
      [.line "for i in range(2):".toList,
        .line "    proj.table('x').resize(1, 1)".toList,
        .line (bindingLine "x".toList),
        .context ⟨"x".toList, .body, false,
          [⟨"a0 = 1".toList, ["    foo.bar()".toList]⟩]⟩] := by
    decide +kernel
  have hread := habsorbed.chunks_flatLines
    (hnormal.trans (by decide +kernel))
  have hsteady : SteadyChunks (chunks (flatLines tornLoop)) := by
    rw [hchunks]
    decide +kernel
  refine ⟨hsteady, fun h => ?_⟩
  have hothers := h.others
  unfold deedsIn at hothers
  rw [hread, hchunks] at hothers
  revert hothers
  decide +kernel

end GridScript.Script
