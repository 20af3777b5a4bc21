/-
The path of a history beside that of its script. Both are the same up to
the name, and the names differ, since the history's ends in two extensions
and the first point that is cut at is the last.
-/
import GridScript.Proofs.Text.Cuts
import GridScript.Storage.Path

namespace GridScript.Path

open Text (splitOn joinWith)

-- ================================================================= names

/-- The name of the history beside a script of some name. -/
def historyName (name : Text) : Text :=
  (cutExtension name).1 ++ '.' :: "history.json".toList

/-- A name is its stem, if it has no extension, and else the two and the
point between them. -/
theorem cutExtension_cases (name : Text) :
    cutExtension name = (name, none)
      ∨ ∃ stem extension, cutExtension name = (stem, some extension)
      ∧ name = stem ++ '.' :: extension ∧ '.' ∉ extension := by
  unfold cutExtension
  cases hcut : Text.cutAtLast? '.' name with
  | none => exact Or.inl rfl
  | some cut =>
      obtain ⟨stem, extension⟩ := cut
      obtain ⟨hname, hpoint⟩ := Text.cutAtLast?_eq_some hcut
      cases hstem : stem.isEmpty with
      | true => exact Or.inl (by simp [hstem])
      | false => exact Or.inr ⟨stem, extension, by simp [hstem], hname, hpoint⟩

theorem historyName_ne (name : Text) : historyName name ≠ name := by
  unfold historyName
  rcases cutExtension_cases name
    with hcut | ⟨stem, extension, hcut, hname, hpoint⟩
  · rw [hcut]
    intro heq
    have hlength := congrArg List.length heq
    simp at hlength
  · rw [hcut]
    intro heq
    have hextension : '.' :: "history.json".toList = '.' :: extension :=
      List.append_cancel_left (heq.trans hname)
    injection hextension with _ hextension
    exact hpoint (hextension ▸ by decide)

theorem slash_not_mem_historyName {name : Text} (h : '/' ∉ name) :
    '/' ∉ historyName name := by
  have hstem : '/' ∉ (cutExtension name).1 := by
    rcases cutExtension_cases name
      with hcut | ⟨stem, extension, hcut, hname, -⟩
    · rwa [hcut]
    · rw [hcut]
      exact fun hmem => h (hname ▸ List.mem_append_left _ hmem)
  unfold historyName
  rw [List.mem_append, not_or]
  exact ⟨hstem, by decide⟩

/-- The name is one that a step can go to. -/
theorem historyName_plain (name : Text) :
    isIdle (historyName name) = false ∧ historyName name ≠ ['.', '.'] := by
  have hlength : 2 < (historyName name).length := by
    unfold historyName
    rw [List.length_append]
    exact Nat.lt_add_left _ (by decide)
  constructor
  · cases hidle : isIdle (historyName name) with
    | false => rfl
    | true =>
        have hshort : historyName name = [] ∨ historyName name = ['.'] := by
          simpa [isIdle] using hidle
        rcases hshort with heq | heq <;> simp [heq] at hlength
  · intro heq
    simp [heq] at hlength

-- ================================================================= parts

/-- The parts of a path are all of them but the idle ones at its end. -/
theorem exists_parts (p : Path) :
    ∃ first kept idles, splitOn '/' p = first :: kept ++ idles
    ∧ (∀ part ∈ idles, isIdle part = true) ∧ parts p = (first, kept) := by
  obtain ⟨first, rest, hsplit⟩ :=
    List.exists_cons_of_ne_nil (Text.splitOn_ne_nil '/' p)
  refine ⟨first, (rest.reverse.dropWhile isIdle).reverse,
    (rest.reverse.takeWhile isIdle).reverse, ?_, ?_, ?_⟩
  · rw [List.cons_append, ← List.reverse_append,
      List.takeWhile_append_dropWhile, List.reverse_reverse, hsplit]
  · intro part hpart
    exact List.all_eq_true.1 List.all_takeWhile part (List.mem_reverse.1 hpart)
  · unfold parts
    rw [hsplit]

/-- A path is cut into the parts above its last one that says something,
that part, and idle ones. If the part is a name, then it is the path's. -/
theorem exists_cut (p : Path) :
    ∃ above last idles, splitOn '/' p = above ++ last :: idles
    ∧ (∀ part ∈ idles, isIdle part = true)
    ∧ (isIdle last = true ∨ last = ['.', '.']
      ∨ cutName? p = some (above, last)) := by
  obtain ⟨first, kept, idles, hsplit, hidles, hparts⟩ := exists_parts p
  have hne : first :: kept ≠ [] := List.cons_ne_nil _ _
  refine ⟨(first :: kept).dropLast, (first :: kept).getLast hne, idles, ?_,
    hidles, ?_⟩
  · rw [List.append_cons, List.dropLast_concat_getLast hne, hsplit]
  · unfold cutName?
    rw [hparts]
    simp only [List.getLast?_eq_some_getLast hne, Option.getD_some]
    by_cases hidle : isIdle ((first :: kept).getLast hne) = true
    · exact Or.inl hidle
    · by_cases hup : (first :: kept).getLast hne = ['.', '.']
      · exact Or.inr (Or.inl hup)
      · exact Or.inr (Or.inr (by simp [hidle, hup]))

/-- A path begins at the root if an empty part is in front of others. -/
theorem isAbsolute_joinWith {first : Text} (h : '/' ∉ first)
    (rest : List Text) :
    isAbsolute (joinWith ['/'] (first :: rest))
      = (first.isEmpty && !rest.isEmpty) := by
  cases first with
  | nil => cases rest <;> rfl
  | cons c first =>
      have hc : c ≠ '/' := (List.ne_of_not_mem_cons h).symm
      cases rest <;> simp [isAbsolute, joinWith, hc]

section History

variable {p : Path} {above idles : List Text} {name : Text}

theorem history_eq (h : cutName? p = some (above, name)) :
    history p = joinWith ['/'] (above ++ [historyName name]) := by
  unfold history withExtension
  rw [h]
  rfl

/-- The history's path has the same parts above its name. -/
theorem splitOn_history (hname : cutName? p = some (above, name))
    (hsplit : splitOn '/' p = above ++ name :: idles) :
    splitOn '/' (history p) = above ++ [historyName name] := by
  have hslash : ∀ part ∈ above ++ name :: idles, '/' ∉ part := by
    intro part hpart
    exact Text.not_mem_of_mem_splitOn (hsplit ▸ hpart)
  rw [history_eq hname]
  refine Text.splitOn_joinWith (by simp) ?_
  intro part hpart
  rcases List.mem_append.1 hpart with hpart | hpart
  · exact hslash part (List.mem_append_left _ hpart)
  · rw [List.mem_singleton.1 hpart]
    exact slash_not_mem_historyName (hslash name (by simp))

/-- The history's path sets out from where the script's does. -/
theorem isAbsolute_history (hname : cutName? p = some (above, name))
    (hne : name ≠ []) (hsplit : splitOn '/' p = above ++ name :: idles) :
    isAbsolute (history p) = isAbsolute p := by
  have hslash : ∀ part ∈ above ++ name :: idles, '/' ∉ part := by
    intro part hpart
    exact Text.not_mem_of_mem_splitOn (hsplit ▸ hpart)
  have hpath : p = joinWith ['/'] (above ++ name :: idles) := by
    rw [← hsplit, Text.joinWith_splitOn]
  rw [history_eq hname, hpath]
  cases above with
  | nil =>
      have hhistory : historyName name ≠ [] := by
        intro heq
        have hplain := (historyName_plain name).1
        rw [heq] at hplain
        cases hplain
      rw [List.nil_append, List.nil_append,
        isAbsolute_joinWith
          (slash_not_mem_historyName (hslash name (by simp))),
        isAbsolute_joinWith (hslash name (by simp)),
        List.isEmpty_eq_false_iff.2 hne,
        List.isEmpty_eq_false_iff.2 hhistory]
      rfl
  | cons first above =>
      rw [List.cons_append, List.cons_append,
        isAbsolute_joinWith (hslash first (by simp)),
        isAbsolute_joinWith (hslash first (by simp))]
      cases above <;> rfl

end History

end GridScript.Path
