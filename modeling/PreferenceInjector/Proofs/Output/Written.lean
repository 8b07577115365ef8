import PreferenceInjector.Output
import PreferenceInjector.Proofs.Output.LawfulDisk

/-!
# Written files

Several files are written in turn, up to the first one that cannot be written if there is one. What
a write that succeeds leaves behind are its texts under their paths, as far as no later file takes
the place of an earlier one, and nothing else. A write that fails says so.
-/

namespace PreferenceInjector

open LawfulDisk

variable {σ : Type}

section Step

variable [Disk σ] {disk after : σ} {written : List String} {path text : String}
  {sources : List (String × String)}

/-- A file that can be written is reported, and the others are written after it. -/
theorem writeAll_cons_of_written
    (h : Disk.writeWithDirs disk path text.toUTF8 = (after, none)) :
    writeAll disk written ((path, text) :: sources) =
      ((writeAll after (written ++ [path]) sources).1,
        ⟨(writeAll after (written ++ [path]) sources).2.outcome,
          .wrote path :: (writeAll after (written ++ [path]) sources).2.events⟩) := by
  rw [writeAll, h]

/-- A file that cannot be written ends the writing. -/
theorem writeAll_cons_of_fault {fault : Fault}
    (h : Disk.writeWithDirs disk path text.toUTF8 = (after, some fault)) :
    writeAll disk written ((path, text) :: sources) =
      ((removeAll after written).1,
        ⟨.error (.file fault), .writeFailed path fault :: (removeAll after written).2⟩) := by
  rw [writeAll, h]

end Step

/-! ### Runs -/

/-- The given texts can be written under their paths one after the other. -/
inductive WrittenInTurn [Disk σ] : σ → List (String × String) → σ → Prop
  | nil (disk : σ) : WrittenInTurn disk [] disk
  | cons {disk between after : σ} {path text : String} {sources : List (String × String)}
      (hwrite : Disk.writeWithDirs disk path text.toUTF8 = (between, none))
      (hsources : WrittenInTurn between sources after) :
      WrittenInTurn disk ((path, text) :: sources) after

/-- Texts can be written in turn, but the next one cannot. -/
inductive FaultsAfter [Disk σ] (disk : σ) (sources : List (String × String)) (path text : String)
    (fault : Fault) (after : σ) : Prop
  | intro (between : σ) (hsources : WrittenInTurn disk sources between)
      (hfault : Disk.writeWithDirs between path text.toUTF8 = (after, some fault))

section Run

variable [Disk σ] {disk after : σ} {written : List String} {path text : String}
  {sources : List (String × String)} {fault : Fault}

/-- A text is written before others that can be written up to a fault. -/
theorem FaultsAfter.cons {between : σ} {first firstText : String}
    (hwrite : Disk.writeWithDirs disk first firstText.toUTF8 = (between, none))
    (h : FaultsAfter between sources path text fault after) :
    FaultsAfter disk ((first, firstText) :: sources) path text fault after := by
  obtain ⟨last, hsources, hfault⟩ := h
  exact ⟨last, .cons hwrite hsources, hfault⟩

/-- All texts can be written in turn, or there is a first one that cannot. -/
theorem writtenInTurn_or_faultsAfter (disk : σ) (sources : List (String × String)) :
    (∃ after, WrittenInTurn disk sources after) ∨
      ∃ earlier path text later fault after, sources = earlier ++ (path, text) :: later ∧
        FaultsAfter disk earlier path text fault after := by
  induction sources generalizing disk with
  | nil => exact Or.inl ⟨disk, .nil disk⟩
  | cons source sources ih =>
    obtain ⟨path, text⟩ := source
    rcases hwrite : Disk.writeWithDirs disk path text.toUTF8 with ⟨between, _ | fault⟩
    · rcases ih between with ⟨after, hall⟩ | ⟨earlier, _, _, later, _, _, rfl, hfault⟩
      · exact Or.inl ⟨after, .cons hwrite hall⟩
      · exact Or.inr ⟨(path, text) :: earlier, _, _, later, _, _, rfl, hfault.cons hwrite⟩
    · exact Or.inr ⟨[], path, text, sources, fault, between, rfl, disk, .nil disk, hwrite⟩

/-- Texts that can be written in turn are written, and each of them is reported. -/
theorem WrittenInTurn.writeAll_eq (h : WrittenInTurn disk sources after) :
    writeAll disk written sources =
      (after, ⟨.ok (written ++ sources.map (·.1)), sources.map (.wrote ·.1)⟩) := by
  induction h generalizing written with
  | nil disk =>
    rw [List.map_nil, List.map_nil, List.append_nil]
    rfl
  | cons hwrite _ ih =>
    rw [writeAll_cons_of_written hwrite, ih, List.append_assoc]
    rfl

/-- After the first fault the files before it are removed, whatever follows. -/
theorem FaultsAfter.writeAll_eq (h : FaultsAfter disk sources path text fault after)
    (later : List (String × String)) :
    writeAll disk written (sources ++ (path, text) :: later) =
      ((removeAll after (written ++ sources.map (·.1))).1,
        ⟨.error (.file fault), sources.map (.wrote ·.1) ++
          .writeFailed path fault :: (removeAll after (written ++ sources.map (·.1))).2⟩) := by
  obtain ⟨between, hsources, hfault⟩ := h
  -- Each file that is written joins those that are to be removed.
  induction hsources generalizing written with
  | nil disk =>
    rw [List.nil_append, writeAll_cons_of_fault hfault, List.map_nil, List.append_nil]
    rfl
  | cons hwrite _ ih =>
    rw [List.cons_append, writeAll_cons_of_written hwrite, ih hfault, List.append_assoc]
    rfl

/-- A write that succeeds has written its texts in turn. -/
theorem writtenInTurn_of_writeAll {paths : List String}
    (h : (writeAll disk written sources).2.outcome = .ok paths) :
    WrittenInTurn disk sources (writeAll disk written sources).1 := by
  rcases writtenInTurn_or_faultsAfter disk sources with
    ⟨after, hall⟩ | ⟨earlier, path, text, later, fault, after, rfl, hfault⟩
  · rwa [hall.writeAll_eq]
  · rw [hfault.writeAll_eq] at h
    cases h

/-- A write that fails has a first text that cannot be written. -/
theorem exists_faultsAfter_of_writeAll {failure : Failure}
    (h : (writeAll disk written sources).2.outcome = .error failure) :
    ∃ earlier path text later fault after, sources = earlier ++ (path, text) :: later ∧
      FaultsAfter disk earlier path text fault after := by
  refine (writtenInTurn_or_faultsAfter disk sources).resolve_left ?_
  rintro ⟨after, hall⟩
  rw [hall.writeAll_eq] at h
  cases h

/-- A write that fails reports the file that could not be written. -/
theorem exists_writeFailed_of_writeAll {failure : Failure}
    (h : (writeAll disk written sources).2.outcome = .error failure) :
    ∃ path fault, .writeFailed path fault ∈ (writeAll disk written sources).2.events := by
  obtain ⟨earlier, path, text, later, fault, after, rfl, hfault⟩ :=
    exists_faultsAfter_of_writeAll h
  rw [hfault.writeAll_eq]
  exact ⟨path, fault, List.mem_append_right _ List.mem_cons_self⟩

/-- A write that succeeds results in the paths of its files, and reports each of them. -/
theorem writeAll_eq_of_ok {paths : List String}
    (h : (writeAll disk written sources).2.outcome = .ok paths) :
    (writeAll disk written sources).2 =
      ⟨.ok (written ++ sources.map (·.1)), sources.map (.wrote ·.1)⟩ := by
  rw [(writtenInTurn_of_writeAll h).writeAll_eq]

end Run

/-! ### What is left -/

variable [LawfulDisk σ] {disk after : σ} {written : List String}
  {sources : List (String × String)}

/-- The disk afterwards differs in the files at some paths, which have the given texts unless two of
them lead to one place. -/
structure HasWritten (disk : σ) (sources : List (String × String)) (after : σ) : Prop where
  follows : Follows disk after
  written : ∀ source ∈ sources, Written after source.1
  elsewhere : ∀ place ∉ sources.map (leadsTo disk ·.1), content? after place = content? disk place
  texts : (sources.map (leadsTo disk ·.1)).Nodup → ∀ source ∈ sources,
    content? after (leadsTo disk source.1) = some source.2.toUTF8

/-- Nothing is changed where nothing is written. -/
theorem HasWritten.nil (disk : σ) : HasWritten disk [] disk where
  follows := ⟨rfl, fun _ => id⟩
  written := by simp
  elsewhere := by simp
  texts := by simp

/-- One file is written before the others. -/
theorem HasWritten.cons {between : σ} {path text : String}
    (hwrite : Disk.writeWithDirs disk path text.toUTF8 = (between, none))
    (h : HasWritten between sources after) : HasWritten disk ((path, text) :: sources) after := by
  obtain ⟨hfollows, hpath, hcontent⟩ := writeWithDirs_eq_ok hwrite
  obtain ⟨hlater, hwritten, helsewhere, htexts⟩ := h
  rw [hfollows.leadsTo] at helsewhere htexts
  refine ⟨hfollows.trans hlater, ?_, ?_, ?_⟩
  · exact List.forall_mem_cons.mpr ⟨hlater.written path hpath, hwritten⟩
  · intro place hplace
    rw [List.map_cons, List.mem_cons, not_or] at hplace
    rw [helsewhere place hplace.2, hcontent, Function.update_of_ne hplace.1]
  · intro hnodup
    rw [List.map_cons, List.nodup_cons] at hnodup
    refine List.forall_mem_cons.mpr ⟨?_, htexts hnodup.2⟩
    rw [helsewhere _ hnodup.1, hcontent, Function.update_self]

/-- Texts that are written in turn are left behind. -/
theorem WrittenInTurn.hasWritten (h : WrittenInTurn disk sources after) :
    HasWritten disk sources after := by
  induction h with
  | nil disk => exact HasWritten.nil disk
  | cons hwrite _ ih => exact HasWritten.cons hwrite ih

/-- A fault leaves behind the files that were written before it, and nothing else. -/
theorem FaultsAfter.left {path text : String} {fault : Fault}
    (h : FaultsAfter disk sources path text fault after) :
    Follows disk after ∧ (∀ source ∈ sources, Written after source.1) ∧
      ∀ place ∉ sources.map (leadsTo disk ·.1), content? after place = content? disk place := by
  obtain ⟨between, hsources, hfault⟩ := h
  obtain ⟨hfollows, hcontent⟩ := writeWithDirs_eq_fault hfault
  have hwritten := hsources.hasWritten
  refine ⟨hwritten.follows.trans hfollows, ?_, ?_⟩
  · intro source hsource
    exact hfollows.written _ (hwritten.written source hsource)
  · intro place hplace
    rw [hcontent, hwritten.elsewhere place hplace]

end PreferenceInjector
