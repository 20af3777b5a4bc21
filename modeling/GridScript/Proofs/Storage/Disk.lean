/-
Files on a disk. What is written to a file is read from it, until something
else is written there or it is removed; and what is done to one file leaves
every other as it was.

No path goes through a file, so to put a file somewhere, to change it or to
remove it moves no other place (`Turn.locate`). That is all there is to it
but for links: a link is followed once, so a path that leads to a link would
be written where it is not read. On a `Sound` disk no path leads to one.
-/
import GridScript.Proofs.Except
import GridScript.Proofs.Project.Cells
import GridScript.Proofs.Storage.Path
import GridScript.Storage.Disk

namespace GridScript.Disk

variable {d e : Disk} {p : Path} {place q : List Text}

-- ================================================================= steps

theorem node?_of_ne_nil (h : place ≠ []) :
    d.node? place = d.nodes.get? place := by
  unfold node?
  cases place with
  | nil => exact absurd rfl h
  | cons name names => rfl

/-- Where a place leads: where the link does if it is one, and else there. -/
def follow (d : Disk) (place : List Text) : List Text :=
  match d.node? place with
  | some (.link target) => target
  | _ => place

theorem directory_of_step {part : Text} {next : List Text}
    (h : d.step place part = .ok next) :
    d.node? place = some .directory := by
  unfold step at h
  split at h
  next => cases h
  next hnode => exact hnode
  next => cases h

theorem step_eq {part : Text} (h : d.node? place = some .directory) :
    d.step place part
      = if Path.isIdle part then .ok place
        else if part == ['.', '.'] then .ok place.dropLast
        else if nameLimit < Text.byteLength part then .error .nameTooLong
        else .ok (d.follow (place ++ [part])) := by
  unfold step follow
  rw [h]
  simp only
  cases d.node? (place ++ [part]) with
  | none => rfl
  | some node => cases node <;> rfl

-- =========================================================== sound disks

/-- Everything stands in a directory, no link leads to a link, and relative
paths set out from a directory. -/
structure Sound (d : Disk) : Prop where
  parents : ∀ place, (d.node? place).isSome = true →
    d.node? place.dropLast = some .directory
  links : ∀ place target, d.node? place = some (.link target) →
    ∀ further, d.node? target ≠ some (.link further)
  working : d.node? d.workingPlace = some .directory

/-- Every link leads to a directory, so a file has one place. -/
def LinksDirectories (d : Disk) : Prop :=
  ∀ place target, d.node? place = some (.link target) →
    d.node? target = some .directory

/-- Does the node lead nowhere but to a directory? -/
def leadsToDirectory (d : Disk) : DiskNode → Bool
  | .link target => d.node? target == some .directory
  | _ => true

section Entries

variable (hentries : ∀ entry ∈ d.nodes.entries,
  d.node? entry.1.dropLast = some .directory
    ∧ d.leadsToDirectory entry.2 = true)
include hentries

/-- It is enough to look at what stands somewhere. -/
theorem of_entries {node : DiskNode} (hne : place ≠ [])
    (hnode : d.node? place = some node) :
    d.node? place.dropLast = some .directory
      ∧ d.leadsToDirectory node = true := by
  rw [node?_of_ne_nil hne] at hnode
  exact hentries _ (SortedMap.get?_eq_some_iff.1 hnode)

theorem linksDirectories_of_entries : d.LinksDirectories := by
  intro place target hlink
  have hne : place ≠ [] := by
    rintro rfl
    cases hlink
  exact eq_of_beq (of_entries hentries hne hlink).2

theorem sound_of_entries
    (hworking : d.node? d.workingPlace = some .directory) : d.Sound := by
  refine ⟨fun place hplace => ?_, fun place target hlink further => ?_,
    hworking⟩
  · by_cases hne : place = []
    · rw [hne]
      rfl
    · obtain ⟨node, hnode⟩ := Option.isSome_iff_exists.1 hplace
      exact (of_entries hentries hne hnode).1
  · rw [linksDirectories_of_entries hentries place target hlink]
    exact nofun

end Entries

theorem fresh_entries : ∀ entry ∈ (fresh []).nodes.entries,
    (fresh []).node? entry.1.dropLast = some .directory
      ∧ (fresh []).leadsToDirectory entry.2 = true := by
  decide +kernel

theorem sound_fresh : (fresh []).Sound :=
  sound_of_entries fresh_entries (by decide +kernel)

theorem linksDirectories_fresh : (fresh []).LinksDirectories :=
  linksDirectories_of_entries fresh_entries

namespace Sound

theorem not_link_follow (hd : d.Sound) (place target : List Text) :
    d.node? (d.follow place) ≠ some (.link target) := by
  unfold follow
  split
  next found hlink => exact hd.links place found hlink target
  next hnone => exact hnone target

/-- No step leads to a link. -/
theorem step (hd : d.Sound) {part : Text} {next : List Text}
    (h : d.step place part = .ok next) (target : List Text) :
    d.node? next ≠ some (.link target) := by
  have hdirectory := directory_of_step h
  have hparent := hd.parents place (by rw [hdirectory]; rfl)
  rw [step_eq hdirectory] at h
  split at h
  next =>
      injection h with h
      rw [← h, hdirectory]
      exact nofun
  next =>
      split at h
      next =>
          injection h with h
          rw [← h, hparent]
          exact nofun
      next =>
          split at h
          next => cases h
          next =>
              injection h with h
              rw [← h]
              exact hd.not_link_follow _ target

end Sound

/-- A path is followed part by part, from the root or from the working
directory. -/
theorem locate_eq_ok (h : d.locate p = .ok place) :
    (Text.splitOn '/' p).foldlM d.step
      (if Path.isAbsolute p then [] else d.workingPlace)
      = .ok place := by
  unfold locate at h
  split at h
  next => cases h
  next =>
      split at h
      next => cases h
      next =>
          split at h
          next => cases h
          next => exact h

/-- No path leads to a link. -/
theorem Sound.locate (hd : d.Sound) (h : d.locate p = .ok place)
    (target : List Text) :
    d.node? place ≠ some (.link target) := by
  refine of_foldlM
    (P := fun place => ∀ target, d.node? place ≠ some (.link target))
    (fun _ _ _ _ hstep => hd.step hstep) ?_ (locate_eq_ok h) target
  intro target
  split
  next => exact nofun
  next =>
      rw [hd.working]
      exact nofun

-- ======================================================= files and names

/-- Idle parts lead nowhere else. -/
theorem foldlM_idle {idles : List Text}
    (hidles : ∀ part ∈ idles, Path.isIdle part = true)
    (h : idles.foldlM d.step q = .ok place) : place = q := by
  induction idles generalizing q with
  | nil =>
      injection h with h
      exact h.symm
  | cons part idles ih =>
      obtain ⟨hpart, hrest⟩ := List.forall_mem_cons.1 hidles
      rw [List.foldlM_cons] at h
      obtain ⟨next, hstep, h⟩ := exists_of_bind_eq_ok h
      rw [step_eq (directory_of_step hstep), if_pos hpart] at hstep
      injection hstep with hstep
      rw [ih hrest h, hstep]

/-- A step goes up or to what has the name in the directory. -/
theorem eq_follow_of_step {part : Text} {next : List Text}
    (h : d.step place part = .ok next) (hidle : Path.isIdle part = false)
    (hup : part ≠ ['.', '.']) :
    next = d.follow (place ++ [part]) := by
  rw [step_eq (directory_of_step h), hidle, if_neg nofun,
    if_neg (by simpa using hup)] at h
  split at h
  next => cases h
  next =>
      injection h with h
      exact h.symm

/-- A path that leads to no directory ends in a name, and the name stands in
the directory that the parts above it lead to. -/
theorem Sound.exists_name (hd : d.Sound) (hplace : d.locate p = .ok place)
    (hfile : d.node? place ≠ some .directory) :
    ∃ above name idles directory, Text.splitOn '/' p = above ++ name :: idles
      ∧ Path.cutName? p = some (above, name) ∧ name ≠ []
      ∧ above.foldlM d.step (if Path.isAbsolute p then [] else d.workingPlace)
        = .ok directory
      ∧ place = d.follow (directory ++ [name]) := by
  obtain ⟨above, name, idles, hsplit, hidles, hname⟩ := Path.exists_cut p
  have hsteps := locate_eq_ok hplace
  rw [hsplit, List.foldlM_append] at hsteps
  obtain ⟨directory, habove, hsteps⟩ := exists_of_bind_eq_ok hsteps
  rw [List.foldlM_cons] at hsteps
  obtain ⟨next, hstep, hsteps⟩ := exists_of_bind_eq_ok hsteps
  obtain rfl := foldlM_idle hidles hsteps
  have hdirectory := directory_of_step hstep
  have hparent := hd.parents directory (by rw [hdirectory]; rfl)
  -- the last part leads on, for to stay or to go up ends at a directory
  have hidle : Path.isIdle name = false := by
    cases hidle : Path.isIdle name with
    | false => rfl
    | true =>
        rw [step_eq hdirectory, if_pos hidle] at hstep
        injection hstep with hstep
        exact absurd (hstep ▸ hdirectory) hfile
  have hup : name ≠ ['.', '.'] := by
    rintro rfl
    rw [step_eq hdirectory, if_neg (by decide), if_pos (by decide)] at hstep
    injection hstep with hstep
    exact hfile (hstep ▸ hparent)
  refine ⟨above, name, idles, directory, hsplit, ?_, ?_, habove,
    eq_follow_of_step hstep hidle hup⟩
  · rcases hname with h | h | h
    · rw [hidle] at h
      cases h
    · exact absurd h hup
    · exact h
  · rintro rfl
    cases hidle

/-- A file that is not linked to stands where it is looked for. -/
theorem LinksDirectories.follow_eq (h : d.LinksDirectories)
    (hfile : d.node? (d.follow place) ≠ some .directory) :
    d.follow place = place := by
  unfold follow at hfile ⊢
  split
  next target hlink =>
      simp only [hlink] at hfile
      exact absurd (h place target hlink) hfile
  next => rfl

/-- The history beside a script does not stand where the script does. -/
theorem locate_history_ne (hd : d.Sound) (hlinks : d.LinksDirectories)
    (hplace : d.locate p = .ok place)
    (hfile : d.node? place ≠ some .directory) :
    d.locate (Path.history p) ≠ .ok place := by
  intro hbeside
  obtain ⟨above, name, idles, directory, hsplit, hname, hne, habove,
      hscript⟩ :=
    hd.exists_name hplace hfile
  have hsteps := locate_eq_ok hbeside
  rw [Path.splitOn_history hname hsplit,
    Path.isAbsolute_history hname hne hsplit, List.foldlM_append,
    habove] at hsteps
  obtain ⟨next, hstep, hsteps⟩ :=
    exists_of_bind_eq_ok (f := fun s => [].foldlM d.step s) hsteps
  injection hsteps with hsteps
  obtain ⟨hidle, hup⟩ := Path.historyName_plain name
  have hhistory := eq_follow_of_step (hsteps ▸ hstep) hidle hup
  -- neither place is a link, so both are named as they stand
  have hsame : directory ++ [name] = directory ++ [Path.historyName name] :=
    calc directory ++ [name]
      _ = d.follow (directory ++ [name]) :=
        (hlinks.follow_eq (hscript ▸ hfile)).symm
      _ = d.follow (directory ++ [Path.historyName name]) :=
        hscript.symm.trans hhistory
      _ = directory ++ [Path.historyName name] :=
        hlinks.follow_eq (hhistory ▸ hfile)
  exact Path.historyName_ne name
    (List.singleton_inj.1 (List.append_cancel_left hsame)).symm

-- ================================================================= turns

/-- A file stands at a place, or nothing does. -/
def IsOpen (d : Disk) (place : List Text) : Prop :=
  d.node? place = none ∨ ∃ contents, d.node? place = some (.file contents)

theorem IsOpen.not_directory (h : d.IsOpen place) :
    d.node? place ≠ some .directory := by
  rcases h with hnone | ⟨contents, hfile⟩
  · rw [hnone]
    exact nofun
  · rw [hfile]
    exact nofun

theorem IsOpen.follow (h : d.IsOpen place) : d.follow place = place := by
  unfold Disk.follow
  rcases h with hnone | ⟨contents, hfile⟩
  · rw [hnone]
  · rw [hfile]

/-- Two disks that differ in what is in a file, or in whether it is there. -/
structure Turn (q : List Text) (d e : Disk) : Prop where
  working : e.workingPlace = d.workingPlace
  parent : d.node? q.dropLast = some .directory
  before : d.IsOpen q
  after : e.IsOpen q
  others : ∀ place, place ≠ q → e.node? place = d.node? place

namespace Turn

/-- A file may be left as it is. -/
theorem refl (hd : d.Sound) {contents : String}
    (h : d.node? q = some (.file contents)) :
    Turn q d d :=
  ⟨rfl, hd.parents q (by rw [h]; rfl), Or.inr ⟨contents, h⟩,
    Or.inr ⟨contents, h⟩, fun _ _ => rfl⟩

theorem follow (h : Turn q d e) (place : List Text) :
    e.follow place = d.follow place := by
  by_cases hq : place = q
  · rw [hq, h.before.follow, h.after.follow]
  · unfold Disk.follow
    rw [h.others place hq]

/-- Where a directory stands, another place is meant. -/
theorem directory (h : Turn q d e) (hplace : d.node? place = some .directory) :
    e.node? place = some .directory := by
  have hq : place ≠ q := by
    rintro rfl
    exact h.before.not_directory hplace
  rw [h.others place hq, hplace]

theorem symm (h : Turn q d e) : Turn q e d :=
  ⟨h.working.symm, h.directory h.parent, h.after, h.before,
    fun place hq => (h.others place hq).symm⟩

theorem step (h : Turn q d e) {part : Text} {next : List Text}
    (hstep : d.step place part = .ok next) :
    e.step place part = .ok next := by
  have hdirectory := directory_of_step hstep
  rw [step_eq hdirectory] at hstep
  rw [step_eq (h.directory hdirectory), h.follow]
  exact hstep

/-- A path leads where it led. -/
theorem locate (h : Turn q d e) (hplace : d.locate p = .ok place) :
    e.locate p = .ok place := by
  have hsteps :=
    foldlM_eq_ok (fun _ _ _ hstep => h.step hstep) (locate_eq_ok hplace)
  unfold Disk.locate at hplace ⊢
  rw [h.working]
  split at hplace
  next => cases hplace
  next hname =>
      rw [if_neg hname]
      split at hplace
      next => cases hplace
      next hempty =>
          rw [if_neg hempty]
          split at hplace
          next => cases hplace
          next hlong =>
              rw [if_neg hlong]
              exact hsteps

theorem sound (h : Turn q d e) (hd : d.Sound) : e.Sound := by
  have hlink : ∀ {place target}, e.node? place = some (.link target) →
      d.node? place = some (.link target) := by
    intro place target hplace
    -- what was turned is a file or is gone, so it is no link
    have hq : place ≠ q := by
      rintro rfl
      rcases h.after with hnone | ⟨contents, hfile⟩
      · rw [hnone] at hplace
        cases hplace
      · rw [hfile] at hplace
        cases hplace
    rwa [← h.others place hq]
  refine ⟨fun place hplace => ?_,
    fun place target hplace further hfurther => ?_, ?_⟩
  · by_cases hq : place = q
    · subst hq
      exact h.directory h.parent
    · rw [h.others place hq] at hplace
      exact h.directory (hd.parents place hplace)
  · exact hd.links place target (hlink hplace) further (hlink hfurther)
  · rw [h.working]
    exact h.directory hd.working

end Turn

-- ================================================================= files

/-- What is put at a place stands there, and nothing else moves. -/
theorem node?_put (hne : place ≠ []) (node : DiskNode) (q : List Text) :
    (d.put place node).node? q = if place = q then some node
      else d.node? q := by
  cases q with
  | nil =>
      rw [if_neg hne]
      rfl
  | cons name names =>
      rw [node?_of_ne_nil (List.cons_ne_nil _ _),
        node?_of_ne_nil (List.cons_ne_nil _ _)]
      exact SortedMap.get?_insert_eq _ _ _ _

/-- A file is written where its path leads, and it is there afterwards. -/
theorem write_eq_ok (hd : d.Sound) {contents : String}
    (h : d.write p contents = .ok e) :
    ∃ place, d.locate p = .ok place ∧ Turn place d e
      ∧ e.node? place = some (.file contents) := by
  unfold write at h
  obtain ⟨place, hplace, h⟩ := exists_of_bind_eq_ok h
  have hlocate : d.locate p = .ok place := by
    unfold filePlace at hplace
    split at hplace
    next =>
        obtain ⟨_, -, hplace⟩ := exists_of_bind_eq_ok hplace
        cases hplace
    next => exact hplace
  refine ⟨place, hlocate, ?_⟩
  split at h
  next => cases h
  next => cases h
  next hparent hdirectory hprogram =>
      injection h with h
      subst h
      have hne : place ≠ [] := by
        rintro rfl
        exact hdirectory rfl
      have hfile : (d.put place (.file contents)).node? place
          = some (.file contents) := by
        rw [node?_put hne, if_pos rfl]
      refine ⟨⟨rfl, hparent, ?_, Or.inr ⟨contents, hfile⟩, fun q hq => ?_⟩,
        hfile⟩
      -- a place that was written to was free, or held a file
      · cases hnode : d.node? place with
        | none => exact Or.inl hnode
        | some node =>
            cases node with
            | file old => exact Or.inr ⟨old, hnode⟩
            | directory => exact absurd hnode hdirectory
            | program => exact absurd hnode hprogram
            | link target => exact absurd hnode (hd.locate hlocate target)
      · rw [node?_put hne, if_neg (Ne.symm hq)]
  next => cases h
  next => cases h

/-- A file that is removed is gone. -/
theorem remove_eq_ok (hd : d.Sound) (hplace : d.locate p = .ok place)
    {contents : String} (hfile : d.node? place = some (.file contents))
    (h : d.remove p = .ok e) :
    Turn place d e ∧ e.node? place = none := by
  have hne : place ≠ [] := by
    rintro rfl
    cases hfile
  have hparent := hd.parents place (by rw [hfile]; rfl)
  unfold remove at h
  rw [hplace] at h
  simp only [bind, Except.bind, hfile] at h
  injection h with h
  subst h
  have herased : ∀ q : List Text, q ≠ [] →
      ({ d with nodes := d.nodes.erase place } : Disk).node? q
      = if compare q place = .eq then none else d.node? q := by
    intro q hq
    rw [node?_of_ne_nil hq, node?_of_ne_nil hq]
    exact SortedMap.get?_erase _ _ _
  have hnone : ({ d with nodes := d.nodes.erase place } : Disk).node? place
      = none := by
    rw [herased place hne, if_pos Std.ReflOrd.compare_self]
  refine ⟨⟨rfl, hparent, Or.inr ⟨contents, hfile⟩, Or.inl hnone,
    fun q hq => ?_⟩, hnone⟩
  cases q with
  | nil => rfl
  | cons name names =>
      rw [herased _ (List.cons_ne_nil _ _),
        if_neg fun heq => hq (Std.LawfulEqCmp.eq_of_compare heq)]

/-- What a file holds can be read, and so can its size. -/
theorem read_of_file (hplace : d.locate p = .ok place) {contents : String}
    (hfile : d.node? place = some (.file contents)) :
    d.read p = .ok contents
      ∧ d.entry p = .ok (.file contents.utf8ByteSize) := by
  have hlook : d.look p = .ok (.file contents) := by
    unfold look
    rw [hplace]
    simp only [bind, Except.bind, hfile]
    rfl
  unfold read entry
  rw [hlook]
  exact ⟨rfl, rfl⟩

/-- Where nothing stands nothing is read. -/
theorem read_of_none (hplace : d.locate p = .ok place)
    (hnone : d.node? place = none) :
    d.read p = .error .notFound := by
  unfold read look
  rw [hplace]
  simp only [bind, Except.bind, hnone]
  rfl

-- ============================================================== requests

theorem run_entry (d : Disk) (p : Path) :
    (FileStore.entry (m := StateM Disk) p).run d = (d.entry p, d) := rfl

theorem run_read (d : Disk) (p : Path) :
    (FileStore.read (m := StateM Disk) p).run d = (d.read p, d) := rfl

theorem run_write (d : Disk) (p : Path) (contents : String) :
    (FileStore.write (m := StateM Disk) p contents).run d
      = match d.write p contents with
        | .ok e => (.ok (), e)
        | .error error => (.error error, d) := by
  show (Disk.change (·.write p contents)).run d = _
  unfold Disk.change
  rw [StateT.run_bind]
  show (match d.write p contents with
    | .ok e => _
    | .error error => _ : StateM Disk (Except FileError Unit)).run d = _
  cases d.write p contents <;> rfl

end GridScript.Disk
