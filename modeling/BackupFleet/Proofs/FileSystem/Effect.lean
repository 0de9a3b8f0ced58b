import BackupFleet.Proofs.Effect
import BackupFleet.Proofs.FileSystem.Way
import BackupFleet.Proofs.FileTree.Below

/-!
# `BackupFleet.Proofs.FileSystem.Effect` — what each file operation does to the entries

One statement for each operation says all that it can have done: which locations may have another entry
afterwards, and which entry. Callers use these statements and never look into the operations. Making
directories adds directories on the trail of a path and touches nothing that was there (`Grown`); the
other operations change the end of a path, or what is below it, or fail without any change.

## Contents

* `withTree` — what depends on the tree and what does not;
* `ChangesOnly`, `Grown` — changes within bounds, and directories made;
* `admits_of_locate`, `writeFile_cases`, `openAppend_cases`, `append_of_attached` — files;
* `Moves`, `rename_cases` — a file moved;
* `Removes`, `removeAll_ok`, `removeAll_shrinks`, `removeAll_changesOnly` — directories removed.
-/

namespace BackupFleet.FileSystem

open FileTree Effect

/-! ## Another tree -/

@[simp] theorem tree_withTree (fs : FileSystem) (t : FileTree) : (fs.withTree t).tree = t := rfl

theorem start_congr {fs fs' : FileSystem} (h : fs'.workDir = fs.workDir) (p : String) :
    fs'.start p = fs.start p := by
  unfold start
  rw [h]

theorem place_congr {fs fs' : FileSystem} (h : fs'.workDir = fs.workDir) (p : String) :
    fs'.place p = fs.place p := by
  unfold place
  rw [start_congr h]

theorem trail_congr {fs fs' : FileSystem} (h : fs'.workDir = fs.workDir) (p : String) :
    fs'.trail p = fs.trail p := by
  unfold trail
  rw [start_congr h]

theorem way_congr {fs fs' : FileSystem} (h : fs'.workDir = fs.workDir) (p : String) :
    fs'.way p = fs.way p := by
  unfold way
  rw [start_congr h]

theorem look_apply {α : Type} (f : FileSystem → Except FileError α) (fs : FileSystem) :
    look f fs = match f fs with
      | .ok a => .ok a fs
      | .error e => .error e fs := rfl

/-! ## Changes within bounds -/

/-- Nothing has changed but at some locations. -/
structure ChangesOnly (S : Location → Prop) (fs fs' : FileSystem) : Prop where
  workDir : fs'.workDir = fs.workDir
  entries : ∀ k, ¬S k → fs'.tree.get? k = fs.tree.get? k

theorem isReach_changesOnly (S : Location → Prop) : IsReach (ChangesOnly S) where
  refl := fun _ => ⟨rfl, fun _ _ => rfl⟩
  trans := fun h h' =>
    ⟨h'.workDir.trans h.workDir, fun k hk => (h'.entries k hk).trans (h.entries k hk)⟩

/-- Changes at places that depend on the working directory only. -/
theorem isReach_changesOnly_at {S : FileSystem → Location → Prop}
    (hS : ∀ fs fs' : FileSystem, fs'.workDir = fs.workDir → S fs' = S fs) :
    IsReach fun fs fs' => ChangesOnly (S fs) fs fs' where
  refl := fun fs => (isReach_changesOnly (S fs)).refl fs
  trans := by
    intro fs fs' fs'' h h'
    rw [hS fs fs' h.workDir] at h'
    exact (isReach_changesOnly (S fs)).trans h h'

theorem ChangesOnly.mono {S T : Location → Prop} {fs fs' : FileSystem} (h : ChangesOnly S fs fs')
    (hST : ∀ k, S k → T k) : ChangesOnly T fs fs' :=
  ⟨h.workDir, fun k hk => h.entries k fun hs => hk (hST k hs)⟩

/-! ## Directories made -/

/-- Nothing has changed but that directories have come to some locations where nothing was. -/
structure Grown (S : Location → Prop) (fs fs' : FileSystem) : Prop where
  workDir : fs'.workDir = fs.workDir
  entries : ∀ k, fs'.tree.get? k = fs.tree.get? k ∨
    (S k ∧ fs.tree.get? k = none ∧ fs'.tree.get? k = some .directory)

theorem isReach_grown (S : Location → Prop) : IsReach (Grown S) where
  refl := fun _ => ⟨rfl, fun _ => .inl rfl⟩
  trans := by
    intro a b c h h'
    refine ⟨h'.workDir.trans h.workDir, fun k => ?_⟩
    rcases h.entries k with h1 | ⟨hs, hn, hd⟩
    · rw [← h1]
      exact h'.entries k
    · rcases h'.entries k with h2 | ⟨-, hn', -⟩
      · exact .inr ⟨hs, hn, h2.trans hd⟩
      · rw [hd] at hn'
        cases hn'

/-- Directories made at places that depend on the working directory only. -/
theorem isReach_grown_at {S : FileSystem → Location → Prop}
    (hS : ∀ fs fs' : FileSystem, fs'.workDir = fs.workDir → S fs' = S fs) :
    IsReach fun fs fs' => Grown (S fs) fs fs' where
  refl := fun fs => (isReach_grown (S fs)).refl fs
  trans := by
    intro fs fs' fs'' h h'
    rw [hS fs fs' h.workDir] at h'
    exact (isReach_grown (S fs)).trans h h'

namespace Grown

variable {S : Location → Prop} {fs fs' : FileSystem}

/-- No file has come. -/
theorem get?_file_iff (h : Grown S fs fs') {k : Location} {content : Bytes} :
    fs'.tree.get? k = some (.file content) ↔ fs.tree.get? k = some (.file content) := by
  rcases h.entries k with he | ⟨-, hn, hd⟩
  · rw [he]
  · rw [hn, hd]
    simp

/-- Where nothing could come, nothing has changed. -/
theorem get?_of_not (h : Grown S fs fs') {k : Location} (hk : ¬S k) :
    fs'.tree.get? k = fs.tree.get? k := by
  rcases h.entries k with he | ⟨hs, -, -⟩
  · exact he
  · exact absurd hs hk

theorem mono {T : Location → Prop} (h : Grown S fs fs') (hST : ∀ k, S k → T k) : Grown T fs fs' := by
  refine ⟨h.workDir, fun k => ?_⟩
  rcases h.entries k with he | ⟨hs, hn, hd⟩
  · exact .inl he
  · exact .inr ⟨hST k hs, hn, hd⟩

theorem changesOnly (h : Grown S fs fs') : ChangesOnly S fs fs' :=
  ⟨h.workDir, fun _ hk => h.get?_of_not hk⟩

end Grown

/-- Outside of `S`, nothing has changed but that directories have come to some locations in `T` where nothing
    was. -/
structure GrownOutside (S T : Location → Prop) (fs fs' : FileSystem) : Prop where
  workDir : fs'.workDir = fs.workDir
  entries : ∀ k, ¬S k → fs'.tree.get? k = fs.tree.get? k ∨
    (T k ∧ fs.tree.get? k = none ∧ fs'.tree.get? k = some .directory)

theorem Grown.outside {T : Location → Prop} {fs fs' : FileSystem} (h : Grown T fs fs')
    (S : Location → Prop) : GrownOutside S T fs fs' :=
  ⟨h.workDir, fun k _ => h.entries k⟩

theorem ChangesOnly.outside {S : Location → Prop} {fs fs' : FileSystem} (h : ChangesOnly S fs fs')
    (T : Location → Prop) : GrownOutside S T fs fs' :=
  ⟨h.workDir, fun k hk => .inl (h.entries k hk)⟩

namespace GrownOutside

variable {S T : Location → Prop} {fs fs' : FileSystem}

theorem trans {fs'' : FileSystem} (h : GrownOutside S T fs fs') (h' : GrownOutside S T fs' fs'') :
    GrownOutside S T fs fs'' := by
  refine ⟨h'.workDir.trans h.workDir, fun k hk => ?_⟩
  rcases h.entries k hk with h1 | ⟨ht, hn, hd⟩
  · rw [← h1]
    exact h'.entries k hk
  · rcases h'.entries k hk with h2 | ⟨-, hn', -⟩
    · exact .inr ⟨ht, hn, h2.trans hd⟩
    · rw [hd] at hn'
      cases hn'

/-- Directories that come to `S` are among the changes there. -/
theorem mono {S' T' : Location → Prop} (h : GrownOutside S T fs fs') (hS : ∀ k, S k → S' k)
    (hT : ∀ k, T k → T' k ∨ S' k) : GrownOutside S' T' fs fs' := by
  refine ⟨h.workDir, fun k hk => ?_⟩
  rcases h.entries k fun hs => hk (hS k hs) with he | ⟨ht, hn, hd⟩
  · exact .inl he
  · exact .inr ⟨(hT k ht).resolve_right hk, hn, hd⟩

/-- Outside of `S`, no file has come, changed or gone. -/
theorem get?_file_iff (h : GrownOutside S T fs fs') {k : Location} (hk : ¬S k) {content : Bytes} :
    fs'.tree.get? k = some (.file content) ↔ fs.tree.get? k = some (.file content) := by
  rcases h.entries k hk with he | ⟨-, hn, hd⟩
  · rw [he]
  · rw [hn, hd]
    simp

/-- Outside of `S`, every directory is still one. -/
theorem get?_directory (h : GrownOutside S T fs fs') {k : Location} (hk : ¬S k)
    (hd : fs.tree.get? k = some .directory) : fs'.tree.get? k = some .directory := by
  rcases h.entries k hk with he | ⟨-, hn, -⟩
  · rw [he, hd]
  · rw [hd] at hn
    cases hn

/-- Outside of `S` and `T`, nothing has changed. -/
theorem get?_of_not (h : GrownOutside S T fs fs') {k : Location} (hS : ¬S k) (hT : ¬T k) :
    fs'.tree.get? k = fs.tree.get? k := by
  rcases h.entries k hS with he | ⟨ht, -, -⟩
  · exact he
  · exact absurd ht hT

end GrownOutside

theorem makeAt_apply (from_ : Location) (names : List String) (fs : FileSystem) :
    makeAt from_ names fs = match walk fs.tree from_ names with
      | .error e => .error e fs
      | .ok l =>
        if fs.tree.get? l ≠ none then .error .alreadyExists fs
        else if fs.isSealed l then .error .permissionDenied fs
        else .ok () (fs.withTree (fs.tree.put l .directory)) := by
  unfold makeAt
  rw [bind_apply, look_apply]
  cases walk fs.tree from_ names with
  | error e => rfl
  | ok l =>
    simp only [bind_apply, get_apply]
    split
    · rfl
    · split <;> rfl

theorem within_makeAt {S : Location → Prop} {from_ : Location} {names : List String}
    (h : S (lead from_ names)) : Within (Grown S) (makeAt from_ names) := by
  intro fs
  have hrefl := (isReach_grown S).refl fs
  unfold after
  rw [makeAt_apply]
  cases hl : walk fs.tree from_ names with
  | error e => exact hrefl
  | ok l =>
    obtain ⟨-, -, rfl⟩ := walk_eq_ok_iff.1 hl
    by_cases hn : fs.tree.get? (lead from_ names) = none
    · simp only [hn, ne_eq, not_true_eq_false, if_false]
      split
      · rename_i hs
        split at hs <;> cases hs
        refine ⟨rfl, fun k => ?_⟩
        rcases get?_put_cases fs.tree (lead from_ names) .directory k with hk | ⟨rfl, hk⟩
        · exact .inl hk
        · exact .inr ⟨h, hn, hk⟩
      · rename_i hs
        split at hs <;> cases hs
        exact hrefl
    · simp only [hn, ne_eq, not_false_eq_true, if_true]
      exact hrefl

/-- Asking whether a directory is there changes nothing. -/
theorem leadsToDirectory_apply (from_ : Location) (names : List String) (fs : FileSystem) :
    leadsToDirectory from_ names fs = .ok (match walk fs.tree from_ names with
      | .ok l => fs.tree.get? l = some .directory
      | .error _ => false) fs := by
  unfold leadsToDirectory
  simp only [bind_apply, get_apply]
  cases walk fs.tree from_ names <;> rfl

section Made

variable {R : FileSystem → FileSystem → Prop} {from_ : Location} {names : List String}

theorem within_unlessThere (hR : IsReach R) (from_ : Location) (names : List String) (e : FileError) :
    Within R (do if ← leadsToDirectory from_ names then pure () else throw e : FileOp Unit) := by
  have hask : Within R (leadsToDirectory from_ names) := by
    intro fs
    rw [after_of_ok (leadsToDirectory_apply from_ names fs)]
    exact hR.refl fs
  exact .bind hR hask fun b _ fs _ => Within.ite (.pure hR ()) (.throw hR e) fs

theorem within_makeAfter (hR : IsReach R) (hat : Within R (makeAt from_ names)) {parents : FileOp Unit}
    (hp : Within R parents) : Within R (makeAfter from_ names parents) := by
  unfold makeAfter
  refine .tryCatch hR hat fun e => ?_
  refine .ite ?_ (within_unlessThere hR from_ names e)
  refine .bind hR hp fun _ _ _ _ => ?_
  exact Within.tryCatch hR hat (within_unlessThere hR from_ names) _

theorem within_makeChain (hR : IsReach R) (hat : ∀ pre, pre <+: names → Within R (makeAt from_ pre))
    {reversed : List String} (h : reversed.reverse <+: names) : Within R (makeChain from_ reversed) := by
  induction reversed with
  | nil => exact .pure hR ()
  | cons name outer ih =>
    have houter : outer.reverse <+: names := by
      rw [List.reverse_cons] at h
      exact (List.prefix_append _ _).trans h
    rw [makeChain]
    exact .ite (ih houter) (within_makeAfter hR (hat _ h) (ih houter))

end Made

theorem reverse_namesAbove_isPrefix (p : String) : (namesAbove p).reverse <+: Path.segments p := by
  unfold namesAbove
  rw [← List.reverse_suffix, List.reverse_reverse]
  exact (List.tail_suffix _).trans (List.dropWhile_suffix _)

theorem makeDirectories_apply (p : String) (fs : FileSystem) :
    makeDirectories p fs = if p = "" then .ok () fs else match pathError p with
      | some e => .error e fs
      | none =>
        makeAfter (fs.start p) (Path.segments p) (makeChain (fs.start p) (namesAbove p)) fs := by
  unfold makeDirectories
  split
  · rfl
  · cases pathError p <;> rfl

/-- Making directories leads where making them one at a time leads. -/
theorem makeDirectories_within {R : FileSystem → FileSystem → Prop} (hR : IsReach R) {p : String}
    {fs : FileSystem} (hat : ∀ pre, pre <+: Path.segments p → Within R (makeAt (fs.start p) pre)) :
    R fs (after (makeDirectories p) fs) := by
  unfold after
  rw [makeDirectories_apply]
  by_cases hp : p = ""
  · rw [if_pos hp]
    exact hR.refl fs
  · rw [if_neg hp]
    cases pathError p with
    | some e => exact hR.refl fs
    | none =>
      exact within_makeAfter hR (hat _ List.prefix_rfl)
        (within_makeChain hR hat (reverse_namesAbove_isPrefix p)) fs

/-- **Making directories adds directories on the trail of the path**, and changes nothing else. -/
theorem makeDirectories_grown (p : String) (fs : FileSystem) :
    Grown (· ∈ fs.trail p) fs (after (makeDirectories p) fs) :=
  makeDirectories_within (isReach_grown _) fun _ hpre => within_makeAt (lead_mem_visited hpre)

/-- Making the directories above the end of a path adds directories on its trail. -/
theorem makeParents_grown (p : String) (fs : FileSystem) :
    Grown (· ∈ fs.trail p) fs (after (makeParents p) fs) := by
  unfold makeParents
  cases pathError p with
  | some e => exact (isReach_grown _).refl fs
  | none =>
    exact within_makeChain (isReach_grown _) (fun _ hpre => within_makeAt (lead_mem_visited hpre))
      (reverse_namesAbove_isPrefix p) fs

/-- A directory that is there is left alone. -/
theorem makeDirectories_of_directory {p : String} {fs : FileSystem}
    (h : fs.entry p = .ok .directory) : makeDirectories p fs = .ok () fs := by
  obtain ⟨⟨hp, hbytes⟩, hway, hd⟩ := entry_eq_ok_iff.1 h
  have hne : p ≠ "" := by
    rintro rfl
    cases hp
  have hpassed : ∀ k ∈ passed (fs.start p) (Path.segments p), fs.tree.get? k = some .directory := by
    intro k hk
    refine hway k ?_
    unfold way Path.lookupNames
    rw [passed_append]
    exact List.mem_append_left _ hk
  have hwalk : walk fs.tree (fs.start p) (Path.segments p) = .ok (fs.place p) :=
    walk_eq_ok_iff.2 ⟨hpassed, hbytes, rfl⟩
  have hat : makeAt (fs.start p) (Path.segments p) fs = .error .alreadyExists fs := by
    rw [makeAt_apply, hwalk]
    simp [hd]
  have hthere : leadsToDirectory (fs.start p) (Path.segments p) fs = .ok true fs := by
    rw [leadsToDirectory_apply, hwalk]
    simp [hd]
  rw [makeDirectories_apply, if_neg hne, hp]
  show makeAfter (fs.start p) (Path.segments p) _ fs = _
  unfold makeAfter
  rw [tryCatch_apply, hat]
  show ((leadsToDirectory (fs.start p) (Path.segments p) >>= _) : FileOp Unit) fs = _
  rw [bind_apply, hthere]
  rfl

/-! ## The end of a path -/

/-- A name on a path is a text without slashes, and has no character that the path does not have. -/
theorem of_mem_segments {p name : String} (h : name ∈ Path.segments p) :
    name ≠ "" ∧ '/' ∉ name.toList ∧ ∀ c ∈ name.toList, c ∈ p.toList := by
  obtain ⟨piece, hpiece, rfl⟩ := List.mem_map.1 h
  obtain ⟨hmem, hne⟩ := List.mem_filter.1 hpiece
  have hchars := Text.of_mem_splitWhen hmem
  rw [String.toList_ofList]
  refine ⟨fun he => ?_, fun hs => ?_, fun c hc => (hchars c hc).2⟩
  · have : piece = [] := by simpa using congrArg String.toList he
    simp [this] at hne
  · simpa using (hchars _ hs).1

/-- A name on a path is the name of an entry, unless it is a step. -/
theorem isName_of_mem_segments {p name : String} (hp : IsPath p) (h : name ∈ Path.segments p)
    (h1 : name ≠ ".") (h2 : name ≠ "..") : Path.IsName name := by
  obtain ⟨hpath, hbytes⟩ := hp
  obtain ⟨hne, hslash, hchars⟩ := of_mem_segments h
  refine ⟨hne, h1, h2, hslash, fun hn => ?_, hbytes name h⟩
  unfold pathError at hpath
  rw [if_pos (by simpa using hchars _ hn)] at hpath
  cases hpath

/-- A path without names has slashes only. -/
theorem eq_slash_of_segments_nil {p : String} (h : Path.segments p = []) : ∀ c ∈ p.toList, c = '/' := by
  intro c hc
  refine beq_iff_eq.1 (Text.forall_of_splitWhen (q := (· == '/')) (fun piece hpiece => ?_) c hc)
  by_cases hne : piece = []
  · exact hne
  · have hmem : String.ofList piece ∈ Path.segments p :=
      List.mem_map.2 ⟨piece, List.mem_filter.2 ⟨hpiece, by simpa using hne⟩, rfl⟩
    rw [h] at hmem
    cases hmem

/-- Only the empty path gives a look-up nothing to follow. -/
theorem eq_empty_of_lookupNames {p : String} (h : Path.lookupNames p = []) : p = "" := by
  obtain ⟨hsegments, hslash⟩ := List.append_eq_nil_iff.1 h
  cases hl : p.toList.getLast? with
  | none => exact String.toList_eq_nil_iff.1 (List.getLast?_eq_none_iff.1 hl)
  | some c =>
    have hc : c = '/' := eq_slash_of_segments_nil hsegments c (List.mem_of_getLast? hl)
    rw [hl, hc] at hslash
    simp at hslash

/-- A walk that ends at no directory ends at a name in one. -/
theorem walk_end {t : FileTree} {from_ l : Location} {names : List String}
    (h : walk t from_ names = .ok l) (hne : names ≠ []) (hd : t.get? l ≠ some .directory) :
    ∃ name ∈ names, ∃ dir, l = name :: dir ∧ name ≠ "." ∧ name ≠ ".." ∧
      t.get? dir = some .directory := by
  obtain ⟨hpassed, -, rfl⟩ := walk_eq_ok_iff.1 h
  obtain ⟨init, name, rfl⟩ := (List.eq_nil_or_concat names).resolve_left hne
  rw [List.concat_eq_append] at hpassed hd ⊢
  have hdir : t.get? (lead from_ init) = some .directory := by
    refine hpassed _ ?_
    rw [passed_append]
    exact List.mem_append_right _ (by simp [passed])
  rw [lead_append, lead_cons, lead_nil] at hd ⊢
  unfold stepTo at hd ⊢
  by_cases h1 : name = "."
  · rw [if_pos h1, hdir] at hd
    exact absurd rfl hd
  · by_cases h2 : name = ".."
    · rw [if_neg h1, if_pos h2, get?_tail hdir] at hd
      exact absurd rfl hd
    · rw [if_neg h1, if_neg h2]
      exact ⟨name, by simp, lead from_ init, rfl, h1, h2, hdir⟩

/-- **Where a path leads, a file may be put, unless a directory is there.** -/
theorem admits_of_locate {fs : FileSystem} {p : String} {l : Location} (h : fs.locate p = .ok l)
    (hd : fs.tree.get? l ≠ some .directory) (content : Bytes) :
    fs.tree.Admits l (.file content) := by
  obtain ⟨hp, -, -⟩ := locate_eq_ok_iff.1 h
  have hwalk : walk fs.tree (fs.start p) (Path.lookupNames p) = .ok l := by
    unfold locate at h
    rwa [hp.1] at h
  have hnames : Path.lookupNames p ≠ [] := by
    intro hn
    rw [eq_empty_of_lookupNames hn] at hp
    cases hp.1
  obtain ⟨name, hmem, dir, rfl, h1, h2, hdir⟩ := walk_end hwalk hnames hd
  have hmem : name ∈ Path.segments p := by
    rcases List.mem_append.1 hmem with hm | hm
    · exact hm
    · split at hm
      · exact absurd (List.mem_singleton.1 hm) h1
      · cases hm
  exact ⟨isName_of_mem_segments hp hmem h1 h2, hdir, .inr hd⟩

/-! ## Files written and held open -/

theorem writeFile_apply (p : String) (content : Bytes) (fs : FileSystem) :
    writeFile p content fs = match fs.locate p with
      | .error e => .error e fs
      | .ok l => match fs.tree.get? l with
        | some .directory => .error .isDirectory fs
        | some (.file _) => .ok () (fs.withTree (fs.tree.put l (.file content)))
        | none =>
          if fs.isSealed l then .error .permissionDenied fs
          else .ok () (fs.withTree (fs.tree.put l (.file content))) := by
  unfold writeFile
  rw [bind_apply, look_apply]
  cases fs.locate p with
  | error e => rfl
  | ok l =>
    simp only [bind_apply, get_apply]
    cases fs.tree.get? l with
    | none => cases fs.isSealed l <;> rfl
    | some e => cases e <;> rfl

/-- **A file is written at the end of its path, or nothing changes.** -/
theorem writeFile_cases (p : String) (content : Bytes) (fs : FileSystem) :
    (∃ e, writeFile p content fs = .error e fs) ∨
    (writeFile p content fs
        = .ok () (fs.withTree (fs.tree.put (fs.place p) (.file content))) ∧
      fs.locate p = .ok (fs.place p) ∧ fs.tree.Admits (fs.place p) (.file content)) := by
  rw [writeFile_apply]
  cases hl : fs.locate p with
  | error e => exact .inl ⟨e, rfl⟩
  | ok l =>
    obtain ⟨-, -, rfl⟩ := locate_eq_ok_iff.1 hl
    dsimp only
    cases hg : fs.tree.get? (fs.place p) with
    | none =>
      by_cases hs : fs.isSealed (fs.place p) = true
      · exact .inl ⟨.permissionDenied, by simp [hs]⟩
      · exact .inr ⟨by simp [hs], rfl, admits_of_locate hl (by simp [hg]) content⟩
    | some e =>
      cases e with
      | directory => exact .inl ⟨.isDirectory, rfl⟩
      | file old => exact .inr ⟨rfl, rfl, admits_of_locate hl (by simp [hg]) content⟩

/-- Writing a file changes the end of its path alone. -/
theorem writeFile_changesOnly (p : String) (content : Bytes) (fs : FileSystem) :
    ChangesOnly (· = fs.place p) fs (after (writeFile p content) fs) := by
  rcases writeFile_cases p content fs with ⟨e, h⟩ | ⟨h, -, -⟩
  · rw [after_of_error h]
    exact (isReach_changesOnly _).refl fs
  · rw [after_of_ok h]
    exact ⟨rfl, fun k hk => get?_put_of_ne _ hk⟩

/-- A file that was written is found with its content. -/
theorem entry_of_writeFile {p : String} {content : Bytes} {fs fs' : FileSystem}
    (h : writeFile p content fs = .ok () fs') : fs'.entry p = .ok (.file content) := by
  rcases writeFile_cases p content fs with ⟨e, hw⟩ | ⟨hw, hlocate, hadmits⟩
  · rw [hw] at h
    cases h
  have hnotDirectory : fs.tree.get? (fs.place p) ≠ some .directory := by
    intro hd
    rw [writeFile_apply, hlocate] at h
    simp only [hd] at h
    cases h
  rw [hw] at h
  obtain rfl := EStateM.Result.ok.inj h |>.2
  obtain ⟨hp, hway, -⟩ := locate_eq_ok_iff.1 hlocate
  -- The file is none of the directories that lead to it.
  refine entry_eq_ok_iff.2 ⟨hp, fun k hk => ?_, ?_⟩
  · have hkd := hway k hk
    rw [tree_withTree, get?_put_of_ne _ ?_]
    · exact hkd
    · rintro rfl
      exact hnotDirectory hkd
  · show (fs.tree.put (fs.place p) (.file content)).get? (fs.place p) = _
    rw [get?_put hadmits, if_pos rfl]

/-- Where a file is, another content can be written. -/
theorem writeFile_of_file {p : String} {old : Bytes} {fs : FileSystem}
    (h : fs.entry p = .ok (.file old)) (content : Bytes) :
    writeFile p content fs = .ok () (fs.withTree (fs.tree.put (fs.place p) (.file content))) := by
  obtain ⟨hp, hway, hg⟩ := entry_eq_ok_iff.1 h
  rw [writeFile_apply, locate_eq_ok_iff.2 ⟨hp, hway, rfl⟩]
  simp only [hg]

/-- What was written once can be written again, and nothing changes. -/
theorem writeFile_again {p : String} {content : Bytes} {fs fs' : FileSystem}
    (h : writeFile p content fs = .ok () fs') : writeFile p content fs' = .ok () fs' := by
  rw [writeFile_of_file (entry_of_writeFile h)]
  rcases writeFile_cases p content fs with ⟨e, hw⟩ | ⟨hw, -, -⟩
  · rw [hw] at h
    cases h
  · have hfs := (EStateM.Result.ok.inj (hw.symm.trans h)).2
    have hplace : fs'.place p = fs.place p := place_congr (by rw [← hfs]; rfl) p
    rw [hplace, ← hfs]
    simp only [withTree, put_put]

theorem openAppend_apply (p : String) (fs : FileSystem) :
    openAppend p fs = match fs.locate p with
      | .error e => .error e fs
      | .ok l => match fs.tree.get? l with
        | some .directory => .error .isDirectory fs
        | some (.file _) => .ok ⟨l, true⟩ fs
        | none =>
          if fs.isSealed l then .error .permissionDenied fs
          else .ok ⟨l, true⟩ (fs.withTree (fs.tree.put l (.file []))) := by
  unfold openAppend
  rw [bind_apply, look_apply]
  cases fs.locate p with
  | error e => rfl
  | ok l =>
    simp only [bind_apply, get_apply]
    cases fs.tree.get? l with
    | none => cases fs.isSealed l <;> rfl
    | some e => cases e <;> rfl

/-- **A file is held open at the end of its path**; if none was there, an empty one is now. -/
theorem openAppend_cases (p : String) (fs : FileSystem) :
    (∃ e, openAppend p fs = .error e fs) ∨
    (fs.locate p = .ok (fs.place p) ∧
      ((∃ content, fs.tree.get? (fs.place p) = some (.file content) ∧
          openAppend p fs = .ok ⟨fs.place p, true⟩ fs) ∨
        (fs.tree.get? (fs.place p) = none ∧ fs.tree.Admits (fs.place p) (.file []) ∧
          openAppend p fs
            = .ok ⟨fs.place p, true⟩ (fs.withTree (fs.tree.put (fs.place p) (.file [])))))) := by
  rw [openAppend_apply]
  cases hl : fs.locate p with
  | error e => exact .inl ⟨e, rfl⟩
  | ok l =>
    obtain ⟨-, -, rfl⟩ := locate_eq_ok_iff.1 hl
    dsimp only
    cases hg : fs.tree.get? (fs.place p) with
    | none =>
      by_cases hs : fs.isSealed (fs.place p) = true
      · exact .inl ⟨.permissionDenied, by simp [hs]⟩
      · exact .inr ⟨rfl, .inr ⟨rfl, admits_of_locate hl (by simp [hg]) [], by simp [hs]⟩⟩
    | some e =>
      cases e with
      | directory => exact .inl ⟨.isDirectory, rfl⟩
      | file old => exact .inr ⟨rfl, .inl ⟨old, rfl, rfl⟩⟩

/-- A file that cannot be held open is left as it is. -/
theorem eq_of_openAppend_error {p : String} {fs fs' : FileSystem} {e : FileError}
    (h : openAppend p fs = .error e fs') : fs' = fs := by
  rcases openAppend_cases p fs with ⟨e', ho⟩ | ⟨-, ⟨content, -, ho⟩ | ⟨-, -, ho⟩⟩
  · rw [ho] at h
    exact (EStateM.Result.error.inj h).2.symm
  · rw [ho] at h
    cases h
  · rw [ho] at h
    cases h

/-- A held file is held at the end of its path. -/
theorem eq_of_openAppend_ok {p : String} {fs fs' : FileSystem} {handle : AppendHandle}
    (h : openAppend p fs = .ok handle fs') : handle = ⟨fs.place p, true⟩ := by
  rcases openAppend_cases p fs with ⟨e, ho⟩ | ⟨-, ⟨content, -, ho⟩ | ⟨-, -, ho⟩⟩
  · rw [ho] at h
    cases h
  · rw [ho] at h
    exact (EStateM.Result.ok.inj h).1.symm
  · rw [ho] at h
    exact (EStateM.Result.ok.inj h).1.symm

/-- Holding a file open changes the end of its path alone. -/
theorem openAppend_changesOnly (p : String) (fs : FileSystem) :
    ChangesOnly (· = fs.place p) fs (after (openAppend p) fs) := by
  rcases openAppend_cases p fs with ⟨e, h⟩ | ⟨-, ⟨content, -, h⟩ | ⟨-, -, h⟩⟩
  · rw [after_of_error h]
    exact (isReach_changesOnly _).refl fs
  · rw [after_of_ok h]
    exact (isReach_changesOnly _).refl fs
  · rw [after_of_ok h]
    exact ⟨rfl, fun k hk => get?_put_of_ne _ hk⟩

/-- Bytes go to the end of the held file, if it is still in its place. -/
theorem append_apply (h : AppendHandle) (bytes : Bytes) (fs : FileSystem) :
    append h bytes fs = .ok () (match h.attached, fs.tree.get? h.location with
      | true, some (.file content) =>
        fs.withTree (fs.tree.put h.location (.file (content ++ bytes)))
      | _, _ => fs) := by
  unfold append
  simp only [bind_apply, get_apply]
  cases h.attached with
  | false => rfl
  | true =>
    cases fs.tree.get? h.location with
    | none => rfl
    | some e => cases e <;> rfl

/-- Appending changes the held file alone. -/
theorem append_changesOnly (h : AppendHandle) (bytes : Bytes) (fs : FileSystem) :
    ChangesOnly (· = h.location) fs (after (append h bytes) fs) := by
  rw [after_of_ok (append_apply h bytes fs)]
  split
  · exact ⟨rfl, fun k hk => get?_put_of_ne _ hk⟩
  · exact (isReach_changesOnly _).refl fs

/-- Where a file is, a file with another content may be put. -/
theorem admits_of_file {t : FileTree} {l : Location} {old : Bytes}
    (h : t.get? l = some (.file old)) (content : Bytes) : t.Admits l (.file content) := by
  cases l with
  | nil => simp at h
  | cons name dir => exact ⟨isName_of_get? h, get?_tail h, .inr (by simp [h])⟩

/-- A held file that is in its place gets longer, and nothing else changes. -/
theorem append_of_attached {h : AppendHandle} (bytes : Bytes) {content : Bytes} {fs : FileSystem}
    (ha : h.attached = true) (hg : fs.tree.get? h.location = some (.file content)) :
    ∃ fs', append h bytes fs = .ok () fs' ∧ fs'.workDir = fs.workDir ∧
      ∀ k, fs'.tree.get? k
        = if k = h.location then some (.file (content ++ bytes)) else fs.tree.get? k := by
  refine ⟨fs.withTree (fs.tree.put h.location (.file (content ++ bytes))), ?_, rfl, fun k => ?_⟩
  · rw [append_apply, ha, hg]
  · exact get?_put (admits_of_file hg _) k

/-! ## Files moved -/

/-- A file that is taken away at one location and put at another is at the other one alone. -/
theorem get?_moved {t : FileTree} {l k : Location} {content : Bytes}
    (hl : t.get? l = some (.file content)) (hk : t.Admits k (.file content)) (hne : l ≠ k)
    (m : Location) :
    ((t.prune l).put k (.file content)).get? m
      = if m = k then some (.file content) else if m = l then none else t.get? m := by
  obtain ⟨hnamed, htail, hnew⟩ := hk
  have hroot : ∀ {m : Location}, AtOrBelow l m → m ≠ [] := by
    rintro m hb rfl
    obtain rfl : l = [] := List.suffix_nil.1 (atOrBelow_iff.1 hb)
    simp at hl
  -- Below a file there is no directory that the other location could be in.
  have houtside : ¬AtOrBelow l k.tail := by
    intro hb
    by_cases he : l = k.tail
    · rw [← he, hl] at htail
      cases htail
    · rw [get?_below_file hl hb he] at htail
      cases htail
  have hadmits : (t.prune l).Admits k (.file content) := by
    refine ⟨hnamed, ?_, .inr ?_⟩
    · by_cases he : k.tail = []
      · rw [he]
        rfl
      · rw [get?_prune he, if_neg houtside, htail]
    · rw [get?_prune hnamed.ne_nil]
      split
      · simp
      · exact hnew.resolve_left (by simp)
  rw [get?_put hadmits]
  by_cases hmk : m = k
  · rw [if_pos hmk, if_pos hmk]
  rw [if_neg hmk, if_neg hmk]
  by_cases hm : m = []
  · have hml : m ≠ l := by
      rintro rfl
      rw [hm] at hl
      cases hl
    rw [if_neg hml, hm]
    rfl
  rw [get?_prune hm]
  by_cases hml : m = l
  · rw [if_pos hml, hml, if_pos (.refl l)]
  · rw [if_neg hml]
    split
    · rename_i hb
      exact (get?_below_file hl hb (Ne.symm hml)).symm
    · rfl

theorem rename_apply (source target : String) (fs : FileSystem) :
    rename source target fs = match fs.locate source, fs.locate target with
      | .error e, _ => .error e fs
      | .ok _, .error e => .error e fs
      | .ok l, .ok k => match fs.tree.get? l with
        | none => .error .notFound fs
        | some .directory => .error .isDirectory fs
        | some (.file content) =>
          if l = k then .ok () fs
          else if fs.isSealed l || fs.isSealed k then .error .permissionDenied fs
          else if fs.tree.get? k = some .directory then .error .isDirectory fs
          else .ok () (fs.withTree ((fs.tree.prune l).put k (.file content))) := by
  unfold rename
  rw [bind_apply, look_apply]
  cases fs.locate source with
  | error e => rfl
  | ok l =>
    simp only [bind_apply, look_apply]
    cases fs.locate target with
    | error e => rfl
    | ok k =>
      simp only [get_apply]
      cases fs.tree.get? l with
      | none => rfl
      | some e =>
        cases e with
        | directory => rfl
        | file content =>
          simp only []
          split
          · rfl
          · split
            · rfl
            · split <;> rfl

/-- A file went from the end of one path to the end of another, in the place of a file or of nothing. -/
structure Moves (p q : String) (content : Bytes) (fs fs' : FileSystem) : Prop where
  workDir : fs'.workDir = fs.workDir
  source : fs.locate p = .ok (fs.place p)
  target : fs.locate q = .ok (fs.place q)
  differ : fs.place p ≠ fs.place q
  file : fs.tree.get? (fs.place p) = some (.file content)
  free : fs.tree.get? (fs.place q) ≠ some .directory
  entries : ∀ k, fs'.tree.get? k = if k = fs.place q then some (.file content)
    else if k = fs.place p then none else fs.tree.get? k

/-- The file that goes was found at the end of its path. -/
theorem Moves.entry {p q : String} {content : Bytes} {fs fs' : FileSystem} (h : Moves p q content fs fs') :
    fs.entry p = .ok (.file content) := by
  obtain ⟨hgood, hway, -⟩ := locate_eq_ok_iff.1 h.source
  exact entry_eq_ok_iff.2 ⟨hgood, hway, h.file⟩

/-- **A file moves from the end of one path to the end of the other**, two paths of one file move nothing, or
    the operation fails without a change. -/
theorem rename_cases (source target : String) (fs : FileSystem) :
    (∃ e, rename source target fs = .error e fs) ∨
    (rename source target fs = .ok () fs ∧ fs.place source = fs.place target) ∨
    ∃ content fs', rename source target fs = .ok () fs' ∧ Moves source target content fs fs' := by
  rw [rename_apply]
  cases hs : fs.locate source with
  | error e => exact .inl ⟨e, rfl⟩
  | ok l =>
    cases ht : fs.locate target with
    | error e => exact .inl ⟨e, rfl⟩
    | ok k =>
      obtain ⟨-, -, rfl⟩ := locate_eq_ok_iff.1 hs
      obtain ⟨-, -, rfl⟩ := locate_eq_ok_iff.1 ht
      dsimp only
      cases hg : fs.tree.get? (fs.place source) with
      | none => exact .inl ⟨_, rfl⟩
      | some e =>
        cases e with
        | directory => exact .inl ⟨_, rfl⟩
        | file content =>
          dsimp only
          by_cases hlk : fs.place source = fs.place target
          · exact .inr (.inl ⟨if_pos hlk, hlk⟩)
          rw [if_neg hlk]
          by_cases hsealed : (fs.isSealed (fs.place source) || fs.isSealed (fs.place target)) = true
          · exact .inl ⟨_, if_pos hsealed⟩
          rw [if_neg hsealed]
          by_cases hd : fs.tree.get? (fs.place target) = some .directory
          · exact .inl ⟨_, if_pos hd⟩
          rw [if_neg hd]
          exact .inr (.inr ⟨content, _, rfl, rfl, hs, ht, hlk, hg, hd,
            get?_moved hg (admits_of_locate ht hd content) hlk⟩)

/-- Moving a file changes the ends of both paths alone. -/
theorem rename_changesOnly (source target : String) (fs : FileSystem) :
    ChangesOnly (fun k => k = fs.place source ∨ k = fs.place target) fs
      (after (rename source target) fs) := by
  have hrefl := (isReach_changesOnly fun k => k = fs.place source ∨ k = fs.place target).refl fs
  rcases rename_cases source target fs with
    ⟨e, h⟩ | ⟨h, -⟩ | ⟨content, fs', h, hmoves⟩
  · rw [after_of_error h]
    exact hrefl
  · rw [after_of_ok h]
    exact hrefl
  · rw [after_of_ok h]
    refine ⟨hmoves.workDir, fun k hk => ?_⟩
    obtain ⟨hs, ht⟩ := not_or.1 hk
    rw [hmoves.entries, if_neg ht, if_neg hs]

/-! ## Directories removed -/

/-- Removing a path takes what is at or below its end; with `..` at its end, only what is below. The root
    is never taken. -/
def Removes (fs : FileSystem) (p : String) (k : Location) : Prop :=
  k ≠ [] ∧ AtOrBelow (fs.place p) k ∧ ((Path.segments p).getLast? = some ".." → k ≠ fs.place p)

instance (fs : FileSystem) (p : String) (k : Location) : Decidable (fs.Removes p k) :=
  inferInstanceAs (Decidable (_ ∧ _ ∧ _))

/-- A directory whose path ends with a name is taken away with all that is in it. -/
theorem removeLast_of_ne (last : Option String) (fs : FileSystem) (l : Location) :
    last ≠ some "." → last ≠ some ".." → (match last with
      | some "." => do
        set (fs.withTree (pruneBelow fs.tree l))
        throw .invalidArgument
      | some ".." => set (fs.withTree (pruneBelow fs.tree l))
      | _ => set (fs.withTree (fs.tree.prune l)) : FileOp Unit)
      = set (fs.withTree (fs.tree.prune l)) := by
  intro h1 h2
  split
  · exact absurd rfl h1
  · exact absurd rfl h2
  · rfl

theorem removeAll_apply (p : String) (fs : FileSystem) :
    removeAll p fs = match fs.locate p with
      | .error e => .error e fs
      | .ok l => match fs.tree.get? l with
        | none => .error .notFound fs
        | some (.file _) => .error .notDirectory fs
        | some .directory =>
          if fs.isSealed l then .error .permissionDenied fs
          else if (Path.segments p).getLast? = some "." then
            .error .invalidArgument (fs.withTree (pruneBelow fs.tree l))
          else if (Path.segments p).getLast? = some ".." then
            .ok () (fs.withTree (pruneBelow fs.tree l))
          else .ok () (fs.withTree (fs.tree.prune l)) := by
  unfold removeAll
  rw [bind_apply, look_apply]
  cases fs.locate p with
  | error e => rfl
  | ok l =>
    simp only [bind_apply, get_apply]
    cases fs.tree.get? l with
    | none => rfl
    | some e =>
      cases e with
      | file content => rfl
      | directory =>
        simp only []
        split
        · rfl
        · split
          · rename_i h1
            rw [h1]
            rfl
          · rename_i h1
            split
            · rename_i h2
              rw [h2]
              rfl
            · rename_i h2
              exact congrFun (removeLast_of_ne _ fs l h1 h2) fs

/-- **Where a directory is removed, exactly what the path takes is gone.** -/
theorem removeAll_ok {p : String} {fs fs' : FileSystem} (h : removeAll p fs = .ok () fs') :
    fs'.workDir = fs.workDir ∧ fs.entry p = .ok .directory ∧
      ∀ k, fs'.tree.get? k = if fs.Removes p k then none else fs.tree.get? k := by
  rw [removeAll_apply] at h
  cases hl : fs.locate p with
  | error e => rw [hl] at h; cases h
  | ok l =>
    rw [hl] at h
    obtain ⟨hp, hway, rfl⟩ := locate_eq_ok_iff.1 hl
    cases hg : fs.tree.get? (fs.place p) with
    | none => simp [hg] at h
    | some e =>
      cases e with
      | file content => simp [hg] at h
      | directory =>
        have hentry := entry_eq_ok_iff.2 ⟨hp, hway, hg⟩
        simp only [hg] at h
        split at h
        · cases h
        · split at h
          · cases h
          · split at h
            · rename_i hup
              cases h
              refine ⟨rfl, hentry, fun k => ?_⟩
              by_cases hk : k = []
              · simp [hk, Removes]
              · rw [tree_withTree, get?_pruneBelow hk]
                simp [Removes, hup, hk]
            · rename_i hup
              cases h
              refine ⟨rfl, hentry, fun k => ?_⟩
              by_cases hk : k = []
              · simp [hk, Removes]
              · rw [tree_withTree, get?_prune hk]
                simp [Removes, hup, hk]

/-- Removing changes no entry but by taking it away, also when it fails. -/
theorem removeAll_shrinks (p : String) (fs : FileSystem) :
    (after (removeAll p) fs).workDir = fs.workDir ∧
      ∀ k, (after (removeAll p) fs).tree.get? k = fs.tree.get? k ∨
        (after (removeAll p) fs).tree.get? k = none := by
  have hunchanged : ∀ fs' : FileSystem, fs' = fs → fs'.workDir = fs.workDir ∧
      ∀ k, fs'.tree.get? k = fs.tree.get? k ∨ fs'.tree.get? k = none := by
    rintro _ rfl
    exact ⟨rfl, fun k => .inl rfl⟩
  unfold after
  rw [removeAll_apply]
  cases hl : fs.locate p with
  | error e => exact hunchanged _ rfl
  | ok l =>
    dsimp only
    cases hg : fs.tree.get? l with
    | none => exact hunchanged fs rfl
    | some e =>
      cases e with
      | file content => exact hunchanged fs rfl
      | directory =>
        dsimp only
        by_cases hs : fs.isSealed l = true
        · rw [if_pos hs]
          exact hunchanged fs rfl
        · rw [if_neg hs]
          by_cases h1 : (Path.segments p).getLast? = some "."
          · rw [if_pos h1]
            exact ⟨rfl, pruneBelow_shrinks fs.tree l⟩
          · by_cases h2 : (Path.segments p).getLast? = some ".."
            · rw [if_neg h1, if_pos h2]
              exact ⟨rfl, pruneBelow_shrinks fs.tree l⟩
            · rw [if_neg h1, if_neg h2]
              exact ⟨rfl, prune_shrinks fs.tree l⟩

/-- Removing changes nothing but what is at or below the end of the path. -/
theorem removeAll_changesOnly (p : String) (fs : FileSystem) :
    ChangesOnly (AtOrBelow (fs.place p) ·) fs (after (removeAll p) fs) := by
  have hrefl := (isReach_changesOnly (AtOrBelow (fs.place p) ·)).refl fs
  have hemptied : ChangesOnly (AtOrBelow (fs.place p) ·) fs
      (fs.withTree (pruneBelow fs.tree (fs.place p))) := by
    refine ⟨rfl, fun k hk => ?_⟩
    by_cases hroot : k = []
    · simp [hroot]
    · rw [tree_withTree, get?_pruneBelow hroot, if_neg fun h => hk h.1]
  have hremoved : ChangesOnly (AtOrBelow (fs.place p) ·) fs (fs.withTree (fs.tree.prune (fs.place p))) := by
    refine ⟨rfl, fun k hk => ?_⟩
    by_cases hroot : k = []
    · simp [hroot]
    · rw [tree_withTree, get?_prune hroot, if_neg hk]
  unfold after
  rw [removeAll_apply]
  cases hl : fs.locate p with
  | error e => exact hrefl
  | ok l =>
    obtain ⟨-, -, rfl⟩ := locate_eq_ok_iff.1 hl
    dsimp only
    cases hg : fs.tree.get? (fs.place p) with
    | none => exact hrefl
    | some e =>
      cases e with
      | file content => exact hrefl
      | directory =>
        dsimp only
        by_cases hs : fs.isSealed (fs.place p) = true
        · rw [if_pos hs]
          exact hrefl
        · rw [if_neg hs]
          by_cases h1 : (Path.segments p).getLast? = some "."
          · rw [if_pos h1]
            exact hemptied
          · by_cases h2 : (Path.segments p).getLast? = some ".."
            · rw [if_neg h1, if_pos h2]
              exact hemptied
            · rw [if_neg h1, if_neg h2]
              exact hremoved

end BackupFleet.FileSystem
