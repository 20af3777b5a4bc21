/-
A document that is saved and loaded is the same document, as far as its
script and its generated part go, and it does not take the history for
that: the file beside the script may be as it was written, or gone, or hold
something that is no history.

There are two ways back. A history that can be read and is not empty gives
the log; else the log is what stands in the script behind the marker. For a
document that was made by commands both are the normal form of the log
(`commands_chooseHistory`), and a log that is made of its own normal form
has that normal form. What is in the cells does not matter to either way: a
history is read from its JSON as it was written, whatever characters its
lines hold (`History.parse?_text`).
-/
import GridScript.Document.File
import GridScript.Proofs.Document.Rereading
import GridScript.Proofs.Document.Steps
import GridScript.Proofs.Storage.Disk

namespace GridScript

open Script (normalize)

namespace Document

-- ============================================================= flat logs

/-- All commands of the log are flat, those of the active transaction
among them. -/
structure FlatLog (d : Document) : Prop where
  committed : ∀ c ∈ d.log.commands, c.Flat
  active : ∀ c ∈ d.log.activeCommands, c.Flat

namespace FlatLog

variable {d : Document}

theorem extended (h : FlatLog d) {t : Transaction}
    (ht : ∀ c ∈ t.commands, c.Flat) :
    FlatLog (d.extended t) := by
  refine ⟨?_, fun c hc => (by cases hc)⟩
  show ∀ c ∈ (d.log.snoc t).commands, c.Flat
  rw [Log.commands_snoc]
  exact List.forall_mem_append.2 ⟨h.committed, ht⟩

theorem perform (h : FlatLog d) {a : Action} (ha : a.Flat) :
    FlatLog (d.perform a) := by
  cases a with
  | begin kind =>
      show FlatLog (d.begin kind).2
      rcases d.begin_cases kind with ⟨-, hbegin⟩ | ⟨-, hbegin⟩
      · rwa [hbegin]
      · rw [hbegin]
        exact ⟨h.committed, fun c hc => (by cases hc)⟩
  | record c =>
      show FlatLog (d.record c).2
      rcases d.record_cases c with ⟨-, hsame⟩ | ⟨t, p, hactive, -, hrecord⟩
      · rwa [hsame]
      · have hpending := h.active
        unfold Log.activeCommands at hpending
        rw [hactive] at hpending
        rw [hrecord]
        exact ⟨h.committed, Transaction.flat_record ha hpending⟩
  | commit =>
      show FlatLog d.commit.2
      rcases d.commit_cases with ⟨-, hcommit⟩ | ⟨t, hactive, hcommit⟩
      · rwa [hcommit]
      · have hpending := h.active
        unfold Log.activeCommands at hpending
        rw [hactive] at hpending
        rw [hcommit]
        -- an empty transaction is dropped, and any other is flat
        cases t.commands.isEmpty with
        | true => exact ⟨h.committed, fun c hc => (by cases hc)⟩
        | false => exact h.extended hpending
  | abort =>
      show FlatLog d.abort
      rcases d.abort_cases with ⟨-, habort⟩ | ⟨t, -, habort⟩
      · rwa [habort]
      · rw [habort]
        exact ⟨h.committed, fun c hc => (by cases hc)⟩
  | execute c =>
      show FlatLog (d.execute c).2
      rcases d.execute_cases c
        with ⟨-, hsame, -⟩ | ⟨-, hsettled, -⟩ | ⟨p, -, -, hexecute⟩
      · rwa [hsame]
      · rw [hsettled]
        exact ⟨h.committed, fun c hc => (by cases hc)⟩
      · rw [hexecute]
        have hsame : FlatLog { d with project := p } := ⟨h.committed, h.active⟩
        refine hsame.extended fun d hd => ?_
        rw [List.mem_singleton.1 hd]
        exact ha

theorem performAll (h : FlatLog d) {as : List Action}
    (has : ∀ a ∈ as, a.Flat) :
    FlatLog (d.performAll as) := by
  induction as generalizing d with
  | nil => exact h
  | cons a as ih =>
      obtain ⟨ha, hrest⟩ := List.forall_mem_cons.1 has
      exact ih (h.perform ha) hrest

end FlatLog

-- ============================================================== two ways

section Ways

variable {d : Document}

/-- A history gives the lines, and so does a script of which it is, if the
one has lines at all or else the other has them. -/
theorem commands_chooseHistory {script : Text} {ls : List Text}
    {history : Option History}
    (hscript : (History.ofScript script).commands = ls)
    (hhistory : ∀ h, history = some h → h.isEmpty = true ∨ h.commands = ls) :
    (chooseHistory script history).commands = ls := by
  cases history with
  | none => exact hscript
  | some h =>
      show (if h.isEmpty then History.ofScript script else h).commands = ls
      split
      next => exact hscript
      next hlines => exact (hhistory h rfl).resolve_left hlines

/-- The generated part survives either way. -/
theorem generatedText_ofScript {initial : Text} (hinitial : initial ≠ [])
    (h : InStep initial d) (hflat : FlatLog d)
    (hnames : d.project.DistinctNames)
    (counter : Nat) {history : Option History}
    (hhistory : ∀ g, history = some g → g.isEmpty = true ∨ g = d.history) :
    (ofScript counter d.script history).generatedText = d.generatedText := by
  have hsound := h.sound hflat.committed hnames
  have hlog := hsound.resembles
  have hscript : (History.ofScript d.script).commands
      = normalize d.log.lines := by
    rw [h.script]
    exact hlog.commands_ofScript hinitial
  have hchosen : (chooseHistory d.script history).commands
      = normalize d.log.lines := by
    refine commands_chooseHistory hscript fun g hg => ?_
    rcases hhistory g hg with hempty | rfl
    · exact Or.inl hempty
    · exact Or.inr hlog.commands_ofGenerated
  show Text.unlines
    (normalize (Log.ofLines (chooseHistory d.script history).commands).lines)
    = Text.unlines (normalize d.log.lines)
  rw [hchosen, hlog.ofLines.normalize_eq hsound]

end Ways

-- ================================================================= files

/-- The size of a file is that of its text. -/
theorem utf8ByteSize_ofList (t : Text) :
    (String.ofList t).utf8ByteSize = Text.byteLength t := by
  induction t with
  | nil => rfl
  | cons c t ih =>
      rw [String.ofList_cons, String.utf8ByteSize_append,
        String.utf8ByteSize_singleton, ih]
      rfl

section Writing

variable {d e : Document} {path result : Path} {disk saved : Disk}

/-- The two files are the script and then the history. -/
theorem writeFiles_eq_ok
    (h : (d.writeFiles (m := StateM Disk) path).run disk = (.ok (), saved)) :
    ∃ written, disk.write path (String.ofList d.script) = .ok written
      ∧ written.write (Path.history path) d.historyContents = .ok saved := by
  unfold writeFiles at h
  rw [StateT.run_bind, Disk.run_write] at h
  cases hscript : disk.write path (String.ofList d.script) with
  | error error =>
      rw [hscript] at h
      cases h
  | ok written =>
      rw [hscript] at h
      replace h : (FileStore.write (m := StateM Disk)
          (Path.history path) d.historyContents).run
          written = (.ok (), saved) := h
      rw [Disk.run_write] at h
      cases hhistory : written.write (Path.history path) d.historyContents with
      | error error =>
          rw [hhistory] at h
          cases h
      | ok left =>
          rw [hhistory] at h
          injection h with _ hleft
          exact ⟨written, rfl, hleft ▸ hhistory⟩

/-- What was saved is in the two files. -/
theorem save_eq_ok
    (h : (d.save (m := StateM Disk) (some path)).run disk
      = ((.ok result, e), saved)) :
    ∃ written, disk.write path (String.ofList d.script) = .ok written
      ∧ written.write (Path.history path) d.historyContents = .ok saved := by
  replace h : ((d.writeFiles (m := StateM Disk) path) >>= _).run disk
      = ((Except.ok result, e), saved) := h
  rw [StateT.run_bind] at h
  rcases hfiles : (d.writeFiles (m := StateM Disk) path).run disk
    with ⟨error | _, left⟩
  · rw [hfiles] at h
    cases h
  · rw [hfiles] at h
    injection h with _ hleft
    exact writeFiles_eq_ok (hleft ▸ hfiles)

/-- The two files are two, unless a link leads to a file. -/
theorem locate_ne_of_save (hsound : disk.Sound)
    (hlinks : disk.LinksDirectories)
    (h : (d.save (m := StateM Disk) (some path)).run disk
      = ((.ok result, e), saved)) :
    disk.locate path ≠ disk.locate (Path.history path) := by
  obtain ⟨written, hscript, -⟩ := save_eq_ok h
  obtain ⟨place, hplace, hturn, -⟩ := Disk.write_eq_ok hsound hscript
  rw [hplace]
  exact (Disk.locate_history_ne hsound hlinks hplace
    hturn.before.not_directory).symm

end Writing

/-- The history that is read beside a script. -/
def historyOn (disk : Disk) (path : Path) : Option History :=
  match disk.read (Path.history path) with
  | .ok contents => History.parse? contents.toList
  | .error _ => none

/-- A script that can be read and is not too large is loaded, whatever is
beside it. -/
theorem load_eq {disk : Disk} {path : Path} {script : Text} {size : Nat}
    (hread : disk.read path = .ok (String.ofList script))
    (hentry : disk.entry path = .ok (.file size)) (hsize : size ≤ scriptLimit)
    (counter : Nat) :
    (load (m := StateM Disk) counter path).run disk
      = (.ok { ofScript counter script (historyOn disk path) with
          path := some path }, disk) := by
  have hscript : (readScript (m := StateM Disk) path).run disk
      = (.ok script, disk) := by
    unfold readScript
    rw [StateT.run_bind, Disk.run_entry, hentry]
    show (if scriptLimit < size then pure
      (.error (.tooLarge path size scriptLimit))
      else (FileStore.read (m := StateM Disk) path) >>= fun read =>
        pure ((read.map String.toList).mapError DocumentFileError.file)).run
          disk = _
    rw [if_neg (Nat.not_lt.2 hsize), StateT.run_bind, Disk.run_read, hread]
    show (Except.ok (String.ofList script).toList, disk) = _
    rw [String.toList_ofList]
  have hhistory : (readHistory (m := StateM Disk) path).run disk
      = (historyOn disk path, disk) := by
    unfold readHistory historyOn
    rw [StateT.run_bind, Disk.run_read]
    cases disk.read (Path.history path) <;> rfl
  unfold load
  rw [StateT.run_bind, hscript]
  show ((readHistory (m := StateM Disk) path) >>= _).run disk = _
  rw [StateT.run_bind, hhistory]
  rfl

-- ================================================================= fates

/-- What becomes of the file of a history until it is looked for. -/
inductive HistoryFate where
  | kept
  | removed
  /-- The file holds something else. -/
  | replaced (contents : String)

namespace HistoryFate

/-- What the file holds in place of the history is none, or one without
lines. -/
def Harmless : HistoryFate → Prop
  | replaced contents =>
      ∀ h, History.parse? contents.toList = some h → h.isEmpty = true
  | _ => True

/-- The disk after that. -/
def befall (path : Path) (disk : Disk) : HistoryFate → Except FileError Disk
  | kept => .ok disk
  | removed => disk.remove (Path.history path)
  | replaced contents => disk.write (Path.history path) contents

/-- What is read of the file afterwards. -/
def reading (contents : String) : HistoryFate → Except FileError String
  | kept => .ok contents
  | removed => .error .notFound
  | replaced other => .ok other

/-- Nothing but the file of the history is touched. -/
theorem befall_eq_ok {fate : HistoryFate} {disk left : Disk} {path : Path}
    {place : List Text} {contents : String} (hsound : disk.Sound)
    (hplace : disk.locate (Path.history path) = .ok place)
    (hfile : disk.node? place = some (.file contents))
    (h : fate.befall path disk = .ok left) :
    Disk.Turn place disk left
      ∧ left.read (Path.history path) = fate.reading contents := by
  cases fate with
  | kept =>
      injection h with h
      subst h
      exact ⟨.refl hsound hfile, (Disk.read_of_file hplace hfile).1⟩
  | removed =>
      obtain ⟨hturn, hnone⟩ := Disk.remove_eq_ok hsound hplace hfile h
      exact ⟨hturn, Disk.read_of_none (hturn.locate hplace) hnone⟩
  | replaced other =>
      obtain ⟨place', hplace', hturn, hother⟩ := Disk.write_eq_ok hsound h
      rw [hplace] at hplace'
      injection hplace' with hplace'
      subst hplace'
      exact ⟨hturn, (Disk.read_of_file (hturn.locate hplace) hother).1⟩

/-- A history that is found afterwards is the one that was saved, or has no
lines. -/
theorem historyOn_eq {fate : HistoryFate} (hharmless : fate.Harmless)
    {d : Document} {left : Disk} {path : Path}
    (h : left.read (Path.history path) = fate.reading d.historyContents)
    {g : History} (hg : historyOn left path = some g) :
    g.isEmpty = true ∨ g = d.history := by
  unfold historyOn at hg
  rw [h] at hg
  cases fate with
  | kept =>
      right
      have hparse : History.parse? d.historyContents.toList
          = some d.history := by
        unfold historyContents
        rw [String.toList_ofList]
        exact d.history.parse?_text rfl
      exact Option.some.inj (hg.symm.trans hparse)
  | removed => cases hg
  | replaced other => exact Or.inl (hharmless g hg)

end HistoryFate

-- ============================================================ the theorem

/-- A document that was made by commands is the same after it was saved and
loaded, if the two files are two on the disk (`locate_ne_of_save`), and
whether its history is still there or not. It need not be between two
transactions: what is not committed is in neither file, and in no script. -/
theorem load_save {counter : Nat} {helperModule : Text} {as : List Action}
    (hflat : ∀ a ∈ as, a.Flat) {d e : Document}
    (hd : d = (blank counter helperModule).performAll as)
    (hnames : d.project.DistinctNames)
    (hsize : Text.byteLength d.script ≤ scriptLimit) {disk saved left : Disk}
    {path result : Path} (hsound : disk.Sound)
    (hplaces : disk.locate path ≠ disk.locate (Path.history path))
    (hsave : (d.save (m := StateM Disk) (some path)).run disk
      = ((.ok result, e), saved)) {fate : HistoryFate}
    (hharmless : fate.Harmless) (hfate : fate.befall path saved = .ok left)
    (counter' : Nat) :
    ∃ loaded,
      (load (m := StateM Disk) counter' path).run left = (.ok loaded, left)
      ∧ loaded.script = d.script ∧ loaded.generatedText = d.generatedText := by
  have hinStep : InStep (Script.newScript helperModule) d := by
    rw [hd]
    exact (inStep_blank counter helperModule).performAll
      (Script.newScript_ne_nil helperModule) as
  have hlog : FlatLog d := by
    rw [hd]
    exact FlatLog.performAll
      ⟨fun c hc => (by cases hc), fun c hc => (by cases hc)⟩ hflat
  obtain ⟨written, hscript, hhistory⟩ := save_eq_ok hsave
  obtain ⟨place, hplace, hturn, hfile⟩ := Disk.write_eq_ok hsound hscript
  have hwritten := hturn.sound hsound
  obtain ⟨beside, hbeside, hturn', hfile'⟩ :=
    Disk.write_eq_ok hwritten hhistory
  -- the history file is not the script
  have hne : place ≠ beside := by
    rintro rfl
    exact hplaces (hplace.trans (hturn.symm.locate hbeside).symm)
  obtain ⟨hturn'', hreading⟩ :=
    HistoryFate.befall_eq_ok (hturn'.sound hwritten)
      (hturn'.locate hbeside) hfile' hfate
  -- the script is where it was written, whatever was done beside it
  have hlocate : left.locate path = .ok place :=
    hturn''.locate (hturn'.locate (hturn.locate hplace))
  have hnode : left.node? place = some (.file (String.ofList d.script)) := by
    rw [hturn''.others place hne, hturn'.others place hne, hfile]
  obtain ⟨hread, hentry⟩ := Disk.read_of_file hlocate hnode
  rw [utf8ByteSize_ofList] at hentry
  refine ⟨_, load_eq hread hentry hsize counter', rfl, ?_⟩
  exact generatedText_ofScript (Script.newScript_ne_nil helperModule) hinStep
    hlog hnames counter'
    fun g hg => HistoryFate.historyOn_eq hharmless hreading hg

/-- A table with a text in it that has to be escaped. -/
def escaped : Document :=
  (blank 0 Script.defaultModule).performAll
    (layout.map .execute ++ [draft (.text "it's \"1\"\n".toList)])

/-- The disk on which it was saved. -/
def escapedDisk : Disk :=
  ((escaped.save (m := StateM Disk) (some "model.py".toList)).run
    (.fresh [])).2

theorem load_save_escaped :
    ∃ left, HistoryFate.befall "model.py".toList escapedDisk (.replaced "lost")
      = .ok left
      ∧ ∃ loaded, (load (m := StateM Disk) 1 "model.py".toList).run left
        = (.ok loaded, left)
        ∧ loaded.script = escaped.script
        ∧ loaded.generatedText = escaped.generatedText := by
  have hflat :
      ∀ a ∈ layout.map Action.execute ++ [draft (.text "it's \"1\"\n".toList)],
        a.Flat := by
    simp only [layout, List.map_cons, List.map_nil, List.cons_append,
      List.nil_append, List.forall_mem_cons]
    exact ⟨trivial, trivial, trivial, fun a ha => (by cases ha)⟩
  have hsize : Text.byteLength escaped.script ≤ scriptLimit := by
    decide +kernel
  have hharmless : (HistoryFate.replaced "lost").Harmless := by
    have hnone : (History.parse? "lost".toList).isSome = false := by
      decide +kernel
    intro h hparse
    rw [hparse] at hnone
    cases hnone
  have hsaved :
      ((escaped.save (m := StateM Disk) (some "model.py".toList)).run
        (.fresh [])).1.1.isOk = true := by
    decide +kernel
  have hfate : (HistoryFate.befall "model.py".toList escapedDisk
      (.replaced "lost")).isOk
      = true := by
    decide +kernel
  unfold escapedDisk at hfate ⊢
  rcases hsave : (escaped.save (m := StateM Disk) (some "model.py".toList)).run
    (.fresh [])
    -- the computations say that neither step fails
    with ⟨⟨error | result, e⟩, saved⟩
  · rw [hsave] at hsaved
    cases hsaved
  · rw [hsave] at hfate
    cases hleft : HistoryFate.befall "model.py".toList saved (.replaced "lost")
      with
    | error error =>
        rw [hleft] at hfate
        cases hfate
    | ok left =>
        have hplaces :=
          locate_ne_of_save Disk.sound_fresh Disk.linksDirectories_fresh hsave
        exact ⟨left, rfl,
          load_save hflat rfl (by decide) hsize Disk.sound_fresh hplaces hsave
            hharmless hleft 1⟩

end Document

end GridScript
