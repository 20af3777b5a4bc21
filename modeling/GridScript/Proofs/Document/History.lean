/-
The history of a script is what was generated into it. Reading it back
drops the lines that declare names and the blank lines at the end, and the
normal form of a script that creates its tables itself has neither
(`commands_ofScript`): the tables are bound where they are created, and
every line says something. Kept in a file, a history is read as it was
written (`parse?_text`).
-/
import GridScript.History
import GridScript.Proofs.Json.Fields
import GridScript.Proofs.Script.Built
import GridScript.Proofs.Script.Parts

namespace GridScript

open Script (Piece Built normalPieces tokens)
open Text (Unbroken allBlank)

-- ============================================================ declarations

namespace Script

theorem isDeclaration_eq_false {l : Text}
    (h : declaration? (tokens l) = none) :
    isDeclaration l = false := by
  unfold isDeclaration
  rw [h]
  rfl

/-- A header declares no name. -/
theorem not_declaration_headerLine (id : Text) (region : Region) :
    declaration? (tokens (headerLine id region)) = none := by
  unfold declaration?
  cases hbinding : eatBinding? (tokens (headerLine id region)) with
  | none => rfl
  | some found =>
      have hheader := header?_of_eatBinding? hbinding
      rw [header?_headerLine] at hheader
      cases hheader

/-- An indented line declares no name. -/
theorem not_declaration_indent (l : Text) :
    declaration? (tokens (indent ++ l)) = none := by
  have htokens : tokens (indent ++ l)
      = .mark ' ' :: tokens ("   ".toList ++ l) :=
    tokens_punctuation (c := ' ') (by decide) _
  rw [htokens]
  rfl

/-- Text without declarations stays as it is. -/
theorem withoutDeclarations_unlines {ls : List Text}
    (hunbroken : ∀ l ∈ ls, Unbroken l)
    (h : ∀ l ∈ ls, isDeclaration l = false) :
    withoutDeclarations (Text.unlines ls) = Text.unlines ls := by
  have hkept : ∀ p ∈ Text.pieces (Text.unlines ls),
      (!isDeclarationPiece p) = true := by
    intro p hp
    rw [Text.pieces_unlines fun l hl => (hunbroken l hl).1] at hp
    obtain ⟨l, hl, rfl⟩ := List.mem_map.1 hp
    have hline :
        ((l ++ ['\n']).reverse.dropWhile fun c => c == '\n'
          || c == '\r').reverse = l := by
      rw [List.reverse_append, List.reverse_singleton, List.singleton_append,
        List.dropWhile_cons_of_pos (by decide)]
      cases hreverse : l.reverse with
      | nil => exact (List.reverse_eq_nil_iff.1 hreverse).symm
      | cons c t =>
          -- only line breaks are cut off at the end, and the line has none
          have hc : c ∈ l := List.mem_reverse.1 (hreverse ▸ List.mem_cons_self)
          have hfeed : c ≠ '\n' := fun heq => (hunbroken l hl).1 (heq ▸ hc)
          have hreturn : c ≠ '\r' := fun heq => (hunbroken l hl).2 (heq ▸ hc)
          rw [List.dropWhile_cons_of_neg
            (by simp [hfeed, hreturn]), ← hreverse, List.reverse_reverse]
    unfold isDeclarationPiece
    rw [hline, h l hl]
    rfl
  unfold withoutDeclarations
  rw [List.filter_eq_self.2 hkept, Text.flatten_pieces]

end Script

-- ================================================================ blanks

namespace History

/-- Lines of which none is blank stay. -/
theorem dropBlankEnd_eq {ls : List Text} (h : ∀ l ∈ ls, allBlank l = false) :
    dropBlankEnd ls = ls := by
  induction ls with
  | nil => rfl
  | cons l ls ih =>
      have hrest := ih fun m hm => h m (List.mem_cons_of_mem l hm)
      unfold dropBlankEnd at hrest ⊢
      rw [List.foldr_cons, hrest, h l List.mem_cons_self, Bool.and_false]
      rfl

/-- The history of what was generated is all of it, if nothing of that is a
declaration or blank. -/
theorem commands_ofGenerated {ls : List Text}
    (hunbroken : ∀ l ∈ ls, Unbroken l)
    (hdeclaration : ∀ l ∈ ls, Script.isDeclaration l = false)
    (hblank : ∀ l ∈ ls, allBlank l = false) :
    (ofGenerated (Text.unlines ls)).commands = ls := by
  unfold ofGenerated
  rw [Script.withoutDeclarations_unlines hunbroken hdeclaration,
    Text.lines_unlines hunbroken]
  exact dropBlankEnd_eq hblank

/-- The history of a script is that of what was generated into it. -/
theorem commands_compose {initial : Text} (hinitial : initial ≠ [])
    {ls : List Text} (hunbroken : ∀ l ∈ ls, Unbroken l)
    (hdeclaration : ∀ l ∈ ls, Script.isDeclaration l = false)
    (hblank : ∀ l ∈ ls, allBlank l = false) :
    (ofScript (Script.compose initial (Text.unlines ls))).commands = ls := by
  unfold ofScript
  rw [Script.generatedPart_compose (Or.inl hinitial),
    Text.closed_of_endsLine (Text.endsLine_unlines ls),
    Script.withoutDeclarations_unlines hunbroken hdeclaration]
  exact commands_ofGenerated hunbroken hdeclaration hblank

-- ================================================================== JSON

theorem asList?_ofTexts (ts : List Text) :
    Json.asList? Json.asText? (.ofTexts ts) = some ts := by
  have hread : Json.asList? Json.asText? (.array (ts.map Json.text))
      = some (ts.map id) :=
    Json.asList?_map fun _ _ => rfl
  rwa [List.map_id] at hread

theorem ofJson?_toJson (h : History) : ofJson? h.toJson = some h := by
  have hfields : Json.fields? [commandsMember] false h.toJson
      = some [some (.ofTexts h.commands)] :=
    rfl
  unfold ofJson?
  rw [hfields, Option.bind_eq_bind, Option.bind_some]
  simp only [Json.defaulted?, asList?_ofTexts]
  rfl

/-- What was written of a history is read as that history, whatever its
lines hold. -/
theorem parse?_text (h : History) {space : Text}
    (hspace : Json.skipSpace space = []) :
    parse? (h.text ++ space) = some h := by
  have hlegible : h.toJson.isLegible = true := by
    refine Json.isLegible_object
      (List.forall_mem_singleton.2 (Json.isLegible_array ?_))
    intro j hj
    obtain ⟨t, -, rfl⟩ := List.mem_map.1 hj
    rfl
  unfold parse? text
  rw [Json.read?_pretty hlegible hspace, Option.bind_some]
  exact h.ofJson?_toJson

end History

-- ========================================================= built scripts

/-- No line of a built script is blank. -/
theorem allBlank_of_built {created : List Text} {ps : List Piece}
    (hfit : ∀ p ∈ ps, p.Fit) (h : Built created ps) :
    ∀ l ∈ ps.flatMap Piece.render, allBlank l = false := by
  induction ps generalizing created with
  | nil => exact fun l hl => by cases hl
  | cons p ps ih =>
      have hrest := ih (fun q hq => hfit q (List.mem_cons_of_mem p hq)) h.2
      intro l hl
      rw [List.flatMap_cons] at hl
      rcases List.mem_append.1 hl with hl | hl
      · cases p with
        | line m =>
            rw [List.mem_singleton.1 hl]
            exact h.1.2.2.2
        | context c =>
            rcases List.mem_cons.1 hl with rfl | hl
            · exact Script.allBlank_headerLine c.table c.region
            · have hlevel : ∀ st ∈ c.statements, st.Level :=
                fun st hst => ((hfit _ List.mem_cons_self).2 st hst).level
              exact (Script.body_render hlevel l hl).1
      · exact hrest l hl

/-- No line of the normal form of a built script declares a name. -/
theorem isDeclaration_of_built {ps : List Piece} (h : Built [] ps) :
    ∀ l ∈ (normalPieces ps).flatMap Piece.render,
      Script.isDeclaration l = false := by
  intro l hl
  refine Script.isDeclaration_eq_false ?_
  obtain ⟨p, hp, hl⟩ := List.mem_flatMap.1 hl
  cases p with
  | line m =>
      rw [List.mem_singleton.1 hl]
      exact Script.not_declaration_of_built h hp
  | context c =>
      rcases List.mem_cons.1 hl with rfl | hl
      · exact Script.not_declaration_headerLine c.table c.region
      · obtain ⟨st, -, hl⟩ := List.mem_flatMap.1 hl
        obtain ⟨m, -, rfl⟩ := List.mem_map.1 hl
        exact Script.not_declaration_indent m

/-- The history of the normal form of a built script is that normal form,
line for line. -/
theorem History.commands_ofBuilt {ps : List Piece} (hfit : ∀ p ∈ ps, p.Fit)
    (h : Built [] ps) :
    (History.ofGenerated
      (Text.unlines ((normalPieces ps).flatMap Piece.render))).commands
      = (normalPieces ps).flatMap Piece.render := by
  have hfit' := Script.fit_normalPieces hfit h.resolved
  exact History.commands_ofGenerated (Script.unbroken_render hfit')
    (isDeclaration_of_built h) (allBlank_of_built hfit' h.normalPieces)

/-- And so is that of a script with the normal form in it. -/
theorem History.commands_ofScript {initial : Text} (hinitial : initial ≠ [])
    {ps : List Piece} (hfit : ∀ p ∈ ps, p.Fit) (h : Built [] ps) :
    (History.ofScript (Script.compose initial
        (Text.unlines ((normalPieces ps).flatMap Piece.render)))).commands
      = (normalPieces ps).flatMap Piece.render := by
  have hfit' := Script.fit_normalPieces hfit h.resolved
  exact History.commands_compose hinitial (Script.unbroken_render hfit')
    (isDeclaration_of_built h) (allBlank_of_built hfit' h.normalPieces)

end GridScript
