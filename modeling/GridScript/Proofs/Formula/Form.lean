/-
The statement that sets a formula neither begins nor ends with a blank,
and it is one unbroken line unless the formula is written as it stands and
breaks itself (`unbroken_assignment`). Two of the three forms quote what
they are given. An inline formula is written as it stands but for the case
of its cells, and the case of a letter has no part in where a text begins,
ends or breaks (`map_renderInline`).
-/
import GridScript.Formula.Form
import GridScript.Proofs.Formula.Inline

namespace GridScript

open Text (Solid Framed Unbroken isBlank)

namespace Formula

-- ================================================================ bodies

/-- A body is trimmed. -/
theorem exists_trim_of_body (source : Text) :
    ∃ t, t ⊆ source ∧ body source = Text.trim t := by
  unfold body
  split
  next t heq =>
      refine ⟨t, ?_, rfl⟩
      intro c hc
      refine Text.trim_subset source ?_
      rw [heq]
      exact List.mem_cons_of_mem _ hc
  next => exact ⟨_, Text.trim_subset source, rfl⟩

theorem body_subset (source : Text) : body source ⊆ source := by
  obtain ⟨t, hsub, hbody⟩ := exists_trim_of_body source
  rw [hbody]
  exact List.Subset.trans (Text.trim_subset t) hsub

/-- A body that is not empty is framed. -/
theorem framed_body {source : Text} (h : body source ≠ []) :
    Framed (body source) := by
  obtain ⟨t, -, hbody⟩ := exists_trim_of_body source
  rw [hbody] at h ⊢
  refine ⟨?_, ?_⟩
  · obtain ⟨c, rest, hrest⟩ := List.exists_cons_of_ne_nil h
    exact ⟨c, rest, hrest, Text.isBlank_head_trim hrest⟩
  · have hlast := List.getLast?_eq_some_getLast h
    exact ⟨_, hlast, Text.isBlank_getLast_trim hlast⟩

/-- An inline formula is framed as it is. -/
theorem framed_renderInline {source : Text} {tokens : List InlineToken}
    (h : readTokens? (body source) = some tokens) (hne : body source ≠ []) :
    Framed (renderInline tokens) := by
  -- blanks stay blanks, so the ends of the body are ends still
  have hblank : (renderInline tokens).map isBlank
      = (body source).map isBlank := by
    rw [map_renderInline fun c => congrArg Prod.fst (kind_toLower c),
      source_readTokens? h]
  refine ⟨?_, ?_⟩
  · obtain ⟨c, rest, hbody, hc⟩ := (framed_body hne).first
    rw [hbody, List.map_cons, hc] at hblank
    cases hrendered : renderInline tokens with
    | nil =>
        rw [hrendered] at hblank
        cases hblank
    | cons d rest' =>
        rw [hrendered] at hblank
        injection hblank with hd
        exact ⟨d, rest', rfl, hd⟩
  · obtain ⟨c, hlast, hc⟩ := (framed_body hne).last
    have hmap := congrArg List.getLast? hblank
    rw [List.getLast?_map, List.getLast?_map, hlast, Option.map_some,
      hc] at hmap
    exact Option.map_eq_some_iff.1 hmap

-- =========================================================== statements

/-- The formula is written as it stands, and a line breaks in it. -/
def Breaks (source : Text) : Prop :=
  (∃ expr, form source = .inline expr) ∧ ¬Unbroken (body source)

theorem not_breaks_of_unbroken {source : Text} (h : Unbroken source) :
    ¬Breaks source :=
  fun hbreaks => hbreaks.2 (h.of_subset (body_subset source))

theorem readTokens?_of_inlineTokens? {t : Text} {tokens : List InlineToken}
    (h : inlineTokens? t = some tokens) : readTokens? t = some tokens := by
  unfold inlineTokens? at h
  split at h
  next found hfound =>
      split at h
      case isTrue =>
          injection h with heq
          rw [hfound, heq]
      case isFalse => cases h
  next => cases h

/-- An inline form is what the tokens of the body are written as. -/
theorem exists_tokens_of_form {source expr : Text}
    (h : form source = .inline expr) :
    ∃ tokens, inlineTokens? (body source) = some tokens
      ∧ expr = renderInline tokens := by
  unfold form at h
  simp only at h
  split at h
  next => cases h
  next =>
      split at h
      next tokens htokens =>
          injection h with h
          exact ⟨tokens, htokens, h.symm⟩
      next => cases h

/-- Two of the forms quote what they are given, and no line breaks in a
quoted text. -/
theorem unbroken_expression (source : Text) :
    Unbroken (form source).expression ↔ ¬Breaks source := by
  have hquoted : (∀ expr, form source ≠ .inline expr) → ¬Breaks source :=
    fun hother hbreaks => hbreaks.1.elim fun expr hexpr => hother expr hexpr
  cases hform : form source with
  | inline expr =>
      obtain ⟨tokens, htokens, rfl⟩ := exists_tokens_of_form hform
      rw [Form.expression,
        unbroken_renderInline (readTokens?_of_inlineTokens? htokens),
        Breaks, hform]
      exact ⟨fun h hbreaks => hbreaks.2 h,
        fun h => Decidable.byContradiction fun hbroken =>
          h ⟨⟨_, rfl⟩, hbroken⟩⟩
  | aggregate a arguments =>
      refine iff_of_true ?_ (hquoted fun expr h => by rw [hform] at h; cases h)
      have hcomma : Unbroken ", ".toList := by decide
      have hparts : ∀ part ∈ arguments.map fun t =>
          Script.quote (Text.lower t),
          Unbroken part := by
        intro part hpart
        obtain ⟨t, -, rfl⟩ := List.mem_map.1 hpart
        exact Script.unbroken_quote _
      have harguments := Text.unbroken_joinWith hcomma hparts
      have hname : Unbroken a.helperName := by cases a <;> decide
      unfold Form.expression
      simp only [Text.unbroken_append, Text.unbroken_cons]
      exact ⟨⟨hname, by decide, harguments⟩, by decide⟩
  | fallback t =>
      refine iff_of_true ?_ (hquoted fun expr h => by rw [hform] at h; cases h)
      refine Literal.unbroken_call (by decide) ?_
      intro a ha
      rw [List.mem_singleton.1 ha]
      exact Script.unbroken_quote _

/-- The expression of a formula is framed. -/
theorem framed_expression {source : Text} (hne : body source ≠ []) :
    Framed (form source).expression := by
  cases hform : form source with
  | inline expr =>
      obtain ⟨tokens, htokens, rfl⟩ := exists_tokens_of_form hform
      exact framed_renderInline (readTokens?_of_inlineTokens? htokens) hne
  | aggregate a arguments =>
      unfold Form.expression
      cases a <;> exact Text.framed_ends (c := 'c') (by decide) (by decide) _
  | fallback t => exact Text.framed_ends (c := 'f') (by decide) (by decide) _

theorem solid_targetName (c : Cell) : Solid (targetName c) := by
  unfold targetName
  split
  case isTrue =>
      rw [Text.solid_append, Text.solid_cons]
      refine ⟨?_, by decide, (Cell.isWord_ident c).solid⟩
      cases c.region <;> decide
  case isFalse => exact (Cell.isWord_ident c).solid

theorem targetName_ne_nil (c : Cell) : targetName c ≠ [] := by
  unfold targetName
  split
  case isTrue => simp
  case isFalse => exact (Cell.isWord_ident c).ne_nil

/-- The statement that sets a formula. -/
theorem unbroken_assignment (target : Cell) (source : Text) :
    Unbroken (assignment target source) ↔ ¬Breaks source := by
  have hname := (solid_targetName target).unbroken
  have hassign : Unbroken " = ".toList := by decide
  unfold assignment
  rw [Text.unbroken_append, Text.unbroken_append, unbroken_expression]
  exact and_iff_right ⟨hname, hassign⟩

theorem framed_assignment {source : Text} (target : Cell)
    (hne : body source ≠ []) :
    Framed (assignment target source) :=
  ((solid_targetName target).framed (targetName_ne_nil target)).append
    (framed_expression hne) _

end Formula

end GridScript
