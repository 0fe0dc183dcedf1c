import Mathlib.Data.List.Nodup
import WireSchema.Command.Run

/-!
# What writing does to a tree of files

Writing below a directory creates directories where nothing was and puts one text at one place, the
one to which the names lead. So what was written before stays as it was unless the names lead to the
same place again.
-/
namespace WireSchema.Files

namespace FileTree

variable {t t' mid : FileTree} {l : Location} {place other : List String} {text : String}

/-- Where names lead if nothing is in the way. -/
def lead (place names : List String) : List String :=
  names.foldl (fun place name => if name = above then place.dropLast else place ++ [name]) place

theorem lead_append (place a b : List String) : lead place (a ++ b) = lead (lead place a) b :=
  List.foldl_append

theorem lead_eq_append {names : List String} (h : above ∉ names) (place : List String) :
    lead place names = place ++ names := by
  induction names generalizing place with
  | nil => simp [lead]
  | cons name names ih =>
    rw [List.mem_cons, not_or] at h
    have hstep : lead place (name :: names) = lead (place ++ [name]) names := by
      simp [lead, Ne.symm h.1]
    rw [hstep, ih h.2, List.append_assoc]
    rfl

theorem walk_append (place a b : List String) :
    t.walk place (a ++ b) = (t.walk place a >>= fun next => t.walk next b) := by
  induction a generalizing place with
  | nil => rfl
  | cons name names ih =>
    rw [List.cons_append, walk, walk]
    split_ifs
    · rfl
    · exact ih _
    · rfl
    · rfl
    · exact ih _

theorem eq_lead_of_walk {names : List String} (h : t.walk place names = .ok other) :
    other = lead place names := by
  induction names generalizing place with
  | nil => exact (Except.ok.inj h).symm
  | cons name names ih =>
    rw [walk] at h
    split_ifs at h with hdir hname hlong hnone
    · rw [ih h]
      simp [lead, hname]
    · rw [ih h]
      simp [lead, hname]

/-- A file can be put where all but the last of its names lead to a directory. -/
theorem target_eq_ok (h : t.target l = .ok place) :
    ∃ dir name, l.steps = dir ++ [name] ∧ name ≠ above ∧ ¬ maxLocation < l.text.utf8ByteSize ∧
      ¬ maxName < name.utf8ByteSize ∧
      ∃ outer, t.walk (t.start l) dir = .ok outer ∧ t.find? outer = some .directory ∧
        place = outer ++ [name] := by
  unfold target at h
  split_ifs at h with hlong
  cases hlast : l.steps.getLast? with
  | none => simp [hlast] at h
  | some name =>
    simp only [hlast] at h
    have hsteps : l.steps = l.steps.dropLast ++ [name] :=
      (List.dropLast_append_getLast? name hlast).symm
    by_cases habove : name = above
    · rw [if_pos habove] at h
      cases hw : t.walk (t.start l) l.steps <;> simp [hw, bind, Except.bind] at h
    · rw [if_neg habove] at h
      cases hw : t.walk (t.start l) l.steps.dropLast with
      | error e => simp [hw, bind, Except.bind] at h
      | ok outer =>
        simp only [hw, bind, Except.bind] at h
        split_ifs at h with hdir hname
        exact ⟨_, name, hsteps, habove, hlong, hname, outer, hw, not_not.mp hdir,
          (Except.ok.inj h).symm⟩

theorem eq_lead_of_target (h : t.target l = .ok place) : place = lead (t.start l) l.steps := by
  obtain ⟨dir, name, hsteps, habove, -, -, outer, hwalk, -, rfl⟩ := target_eq_ok h
  rw [hsteps, lead_append, ← eq_lead_of_walk hwalk]
  simp [lead, habove]

/-- The directories of a tree stay, and what is not there was not there before. -/
structure Keeps (t t' : FileTree) : Prop where
  workingDirectory_eq : t'.workingDirectory = t.workingDirectory
  directory : ∀ place, t.find? place = some .directory → t'.find? place = some .directory
  missing : ∀ place, t'.find? place = none → t.find? place = none

/-- Nothing that is in a tree changes. -/
structure Grows (t t' : FileTree) : Prop where
  workingDirectory_eq : t'.workingDirectory = t.workingDirectory
  find? : ∀ place e, t.find? place = some e → t'.find? place = some e

theorem Grows.keeps (h : Grows t t') : Keeps t t' where
  workingDirectory_eq := h.workingDirectory_eq
  directory place hp := h.find? place _ hp
  missing place hp := by
    by_contra hsome
    obtain ⟨e, he⟩ := Option.ne_none_iff_exists'.mp hsome
    rw [h.find? place e he] at hp
    cases hp

/-- Nothing changes but at the written places, and but for directories that are created at others
where nothing was. -/
structure ChangesOnly (written created : List String → Prop) (t t' : FileTree) : Prop where
  workingDirectory_eq : t'.workingDirectory = t.workingDirectory
  find? : ∀ place, t'.find? place = t.find? place ∨ written place ∨
    (created place ∧ t.find? place = none ∧ t'.find? place = some .directory)

section ChangesOnly

variable {written created written' created' : List String → Prop}

theorem ChangesOnly.refl (t : FileTree) : ChangesOnly written created t t :=
  ⟨rfl, fun _ => .inl rfl⟩

theorem ChangesOnly.trans (h : ChangesOnly written created t mid)
    (h' : ChangesOnly written created mid t') : ChangesOnly written created t t' := by
  refine ⟨h'.workingDirectory_eq.trans h.workingDirectory_eq, fun place => ?_⟩
  rcases h.find? place with hsame | hwritten | ⟨hcreated, hnone, hdirectory⟩
  · rw [← hsame]
    exact h'.find? place
  · exact .inr (.inl hwritten)
  · rcases h'.find? place with hsame' | hwritten' | ⟨-, hnone', -⟩
    · exact .inr (.inr ⟨hcreated, hnone, hsame'.trans hdirectory⟩)
    · exact .inr (.inl hwritten')
    · rw [hdirectory] at hnone'
      cases hnone'

theorem ChangesOnly.mono (h : ChangesOnly written created t t')
    (hwritten : ∀ place, written place → written' place)
    (hcreated : ∀ place, created place → created' place) : ChangesOnly written' created' t t' := by
  refine ⟨h.workingDirectory_eq, fun place => ?_⟩
  rcases h.find? place with hsame | hplace | ⟨hplace, hnew⟩
  · exact .inl hsame
  · exact .inr (.inl (hwritten place hplace))
  · exact .inr (.inr ⟨hcreated place hplace, hnew⟩)

/-- Where only directories are created, nothing that is there changes. -/
theorem ChangesOnly.grows (h : ChangesOnly (fun _ => False) created t t') : Grows t t' := by
  refine ⟨h.workingDirectory_eq, fun place e he => ?_⟩
  rcases h.find? place with hsame | hwritten | ⟨-, hnone, -⟩
  · rw [hsame, he]
  · exact hwritten.elim
  · rw [he] at hnone
    cases hnone

theorem changesOnly_put_directory (h : t.find? place = none) (hplace : created place) :
    ChangesOnly written created t (t.put place .directory) := by
  refine ⟨rfl, fun other => ?_⟩
  by_cases hother : other = place
  · have hroot : place ≠ [] := by
      rintro rfl
      cases h
    rw [hother]
    exact .inr (.inr ⟨hplace, h, t.find?_put_self _ hroot⟩)
  · exact .inl (find?_put_of_ne t _ hother)

theorem changesOnly_put_file (hplace : written place) :
    ChangesOnly written created t (t.put place (.file text)) := by
  refine ⟨rfl, fun other => ?_⟩
  by_cases hother : other = place
  · exact .inr (.inl (hother ▸ hplace))
  · exact .inl (find?_put_of_ne t _ hother)

end ChangesOnly

theorem find?_put_file (h : t.find? place ≠ some .directory) :
    (t.put place (.file text)).find? place = some (.file text) := by
  refine t.find?_put_self _ ?_
  rintro rfl
  exact h rfl

theorem keeps_put (h : t.find? place ≠ some .directory) : Keeps t (t.put place (.file text)) := by
  refine ⟨rfl, fun other hother => ?_, fun other hother => ?_⟩
  · have hne : other ≠ place := fun heq => h (heq ▸ hother)
    rwa [find?_put_of_ne t _ hne]
  · by_cases heq : other = place
    · rw [heq, find?_put_file h] at hother
      cases hother
    · rwa [find?_put_of_ne t _ heq] at hother

theorem Keeps.walk (h : Keeps t t') {names : List String} (hw : t.walk place names = .ok other) :
    t'.walk place names = .ok other := by
  induction names generalizing place with
  | nil => exact hw
  | cons name names ih =>
    rw [FileTree.walk] at hw ⊢
    split_ifs at hw with hdir hname hlong hnone
    · rw [if_neg (not_not.mpr (h.directory place (not_not.mp hdir))), if_pos hname]
      exact ih hw
    · have hthere : ¬ (t'.find? (place ++ [name])).isNone := fun hn =>
        hnone (Option.isNone_iff_eq_none.mpr (h.missing _ (Option.isNone_iff_eq_none.mp hn)))
      rw [if_neg (not_not.mpr (h.directory place (not_not.mp hdir))), if_neg hname, if_neg hlong,
        if_neg hthere]
      exact ih hw

theorem Keeps.start_eq (h : Keeps t t') (l : Location) : t'.start l = t.start l := by
  unfold start
  rw [h.workingDirectory_eq]

theorem Keeps.resolve (h : Keeps t t') (hl : t.resolve l = .ok place) :
    t'.resolve l = .ok place := by
  unfold FileTree.resolve at hl ⊢
  split_ifs at hl with hlong
  rw [if_neg hlong, h.start_eq]
  exact h.walk hl

/-- What was put at the target of a location is found there. -/
theorem resolve_put (h : t.target l = .ok place) (hfree : t.find? place ≠ some .directory) :
    (t.put place (.file text)).resolve l = .ok place := by
  have hself : (t.put place (.file text)).find? place = some (.file text) := find?_put_file hfree
  have hkeeps : Keeps t (t.put place (.file text)) := keeps_put hfree
  obtain ⟨dir, name, hsteps, habove, hlong, hname, outer, hwalk, hdir, rfl⟩ := target_eq_ok h
  rw [FileTree.resolve, if_neg hlong, hkeeps.start_eq, hsteps, walk_append, hkeeps.walk hwalk]
  change (t.put _ _).walk outer [name] = _
  rw [FileTree.walk, if_neg (not_not.mpr (hkeeps.directory outer hdir)), if_neg habove,
    if_neg hname, hself]
  rfl

/-- The location leads to a place, and the text is there. -/
structure HasFile (t : FileTree) (l : Location) (place : List String) (text : String) : Prop where
  resolve_eq : t.resolve l = .ok place
  find?_eq : t.find? place = some (.file text)

theorem HasFile.grows (h : HasFile t l place text) (hg : Grows t t') : HasFile t' l place text :=
  ⟨hg.keeps.resolve h.resolve_eq, hg.find? place _ h.find?_eq⟩

theorem HasFile.put {text' : String} (h : HasFile t l place text)
    (hfree : t.find? other ≠ some .directory) (hne : place ≠ other) :
    HasFile (t.put other (.file text')) l place text := by
  refine ⟨(keeps_put hfree).resolve h.resolve_eq, ?_⟩
  rw [find?_put_of_ne t _ hne]
  exact h.find?_eq

theorem HasFile.read (h : HasFile t l place text) (hl : l.asDirectory = false) :
    t.read l = .ok text := by
  simp only [FileTree.read, h.resolve_eq, bind, Except.bind, h.find?_eq, hl]
  rfl

end FileTree

namespace FileAction

open FileTree

variable {ε α β : Type} {t t' : FileTree} {l : Location} {text : String}

/-- What an action gives on a tree, and the tree it leaves. -/
def on (a : FileAction ε α) (t : FileTree) : Except ε α × FileTree := a.run.run t

theorem on_bind (a : FileAction ε α) (f : α → FileAction ε β) (t : FileTree) :
    (a >>= f).on t =
      match a.on t with
      | (.ok x, t') => (f x).on t'
      | (.error e, t') => (.error e, t') := by
  unfold on
  simp only [ExceptT.run_bind, StateT.run_bind]
  rcases a.run.run t with ⟨x | x, t'⟩ <;> rfl

theorem on_bind_eq_ok_iff {a : FileAction ε α} {f : α → FileAction ε β} {b : β} :
    (a >>= f).on t = (.ok b, t') ↔
      ∃ x mid, a.on t = (.ok x, mid) ∧ (f x).on mid = (.ok b, t') := by
  rw [on_bind]
  match a.on t with
  | (.ok x, mid) => simp
  | (.error e, mid) => simp

theorem on_tryCatch (a : FileAction ε α) (f : ε → FileAction ε α) (t : FileTree) :
    (tryCatch a f).on t =
      match a.on t with
      | (.ok x, t') => (.ok x, t')
      | (.error e, t') => (f e).on t' := by
  unfold on
  simp only [tryCatch, tryCatchThe, MonadExceptOf.tryCatch, ExceptT.tryCatch, ExceptT.run_mk,
    StateT.run_bind]
  simp only [ExceptT.run]
  rcases StateT.run a t with ⟨x | x, t'⟩ <;> rfl

theorem on_get (t : FileTree) : (get : FileAction ε FileTree).on t = (.ok t, t) := rfl

theorem on_set (t t' : FileTree) : (set t' : FileAction ε Unit).on t = (.ok (), t') := rfl

theorem on_throw (e : ε) (t : FileTree) :
    (throw e : FileAction ε α).on t = (.error e, t) := rfl

theorem on_ofExcept (r : Except ε α) (t : FileTree) :
    (ofExcept r : FileAction ε α).on t = (r, t) := by
  cases r <;> rfl

theorem on_makeDirectory (l : Location) (t : FileTree) :
    (∃ place, t.target l = .ok place ∧ t.find? place = none ∧
        (makeDirectory l).on t = (.ok (), t.put place .directory)) ∨
      ∃ e, (makeDirectory l).on t = (.error e, t) := by
  unfold makeDirectory
  simp only [on_bind, on_get, on_ofExcept]
  cases t.target l with
  | error e => exact .inr ⟨e, rfl⟩
  | ok place =>
    cases hplace : t.find? place with
    | some e => exact .inr ⟨.alreadyExists, by simp [hplace, on_throw]⟩
    | none => exact .inl ⟨place, rfl, hplace, by simp [hplace, on_set]⟩

theorem on_writeFile (l : Location) (text : String) (t : FileTree) :
    (∃ place, t.target l = .ok place ∧ t.find? place ≠ some .directory ∧
        (writeFile l text).on t = (.ok (), t.put place (.file text))) ∨
      ∃ e, (writeFile l text).on t = (.error e, t) := by
  unfold writeFile
  simp only [on_bind, on_get, on_ofExcept]
  cases t.target l with
  | error e => exact .inr ⟨e, rfl⟩
  | ok place =>
    by_cases hplace : t.find? place = some .directory
    · exact .inr ⟨.isDirectory, by simp [hplace, on_throw]⟩
    · exact .inl ⟨place, rfl, hplace, by simp [hplace, on_set]⟩

end FileAction

namespace FileTree

open FileAction

variable {t t' : FileTree} {directory : Location} {path : List String} {text : String}

theorem on_acceptDirectory (l : Location) (e : FileError) (t : FileTree) :
    (on (store.acceptDirectory l e) t).2 = t := by
  have hcheck : on (store.acceptDirectory l e) t =
      on (if !t.isDirectory l then throw e else pure ()) t := rfl
  rw [hcheck]
  split_ifs <;> rfl

/-- The places that are passed from a start on a way of names, and those at which it ends. -/
def OnTheWay (start names place : List String) : Prop :=
  ∃ front, front <+: names ∧ place = lead start front

/-- A location that is the front of another and ends in a name starts where the other does. -/
theorem absolute_eq_of_prefix {l l' : Location} {piece : String} (hpiece : isStep piece = true)
    (hlast : l.pieces.getLast? = some piece) (h : l.pieces <+: l'.pieces) :
    l.absolute = l'.absolute := by
  obtain ⟨rest, hrest⟩ := h
  unfold Location.absolute
  rw [← hrest]
  match hpieces : l.pieces with
  | [] => simp [hpieces] at hlast
  | [first] =>
    obtain rfl : first = piece := by simpa [hpieces] using hlast
    have hfirst : first ≠ "" := by
      rintro rfl
      exact absurd hpiece (by decide)
    cases rest <;> simp [hfirst]
  | first :: second :: pieces => by_cases hfirst : first = "" <;> simp [hfirst]

theorem onTheWay_of_target {l l' : Location} {piece : String} {place : List String}
    (hpiece : isStep piece = true) (hlast : l.pieces.getLast? = some piece)
    (hfront : l.pieces <+: l'.pieces) (h : t.target l = .ok place) :
    OnTheWay (t.start l') l'.steps place := by
  refine ⟨l.steps, hfront.filter isStep, ?_⟩
  rw [eq_lead_of_target h, start, start, absolute_eq_of_prefix hpiece hlast hfront]

/-- Creating the directory of a location, where it may be there already, adds at most this one. -/
theorem changesOnly_tryMakeDirectory {l l' : Location} {piece : String}
    {f : FileError → FileAction FileError Unit} {t : FileTree} {created : List String → Prop}
    (hpiece : isStep piece = true) (hlast : l.pieces.getLast? = some piece)
    (hfront : l.pieces <+: l'.pieces)
    (hcreated : ∀ place, OnTheWay (t.start l') l'.steps place → created place)
    (h : ∀ e, ChangesOnly (fun _ => False) created t (on (f e) t).2) :
    ChangesOnly (fun _ => False) created t (on (tryCatch (store.makeDirectory l) f) t).2 := by
  rw [show store.makeDirectory l = makeDirectory l from rfl, on_tryCatch]
  rcases on_makeDirectory l t with ⟨place, htarget, hplace, hmake⟩ | ⟨e, hmake⟩
  · rw [hmake]
    exact changesOnly_put_directory hplace
      (hcreated place (onTheWay_of_target hpiece hlast hfront htarget))
  · rw [hmake]
    exact h e

/-- Creating directories only adds such as lie on the way, also when it fails. -/
theorem changesOnly_makeDirectories {pieces : List String} {l : Location} {t : FileTree}
    {created : List String → Prop} (hfront : pieces.reverse <+: l.pieces)
    (hcreated : ∀ place, OnTheWay (t.start l) l.steps place → created place) :
    ChangesOnly (fun _ => False) created t (on (store.makeDirectories pieces) t).2 := by
  induction pieces generalizing t with
  | nil => exact .refl t
  | cons piece outer ih =>
    have haccept : ∀ (l : Location) (t : FileTree) (e : FileError),
        ChangesOnly (fun _ => False) created t (on (store.acceptDirectory l e) t).2 := by
      intro l t e
      rw [on_acceptDirectory]
      exact .refl t
    have houterFront : outer.reverse <+: l.pieces := by
      rw [List.reverse_cons] at hfront
      exact (List.prefix_append _ _).trans hfront
    have hlast : (piece :: outer).reverse.getLast? = some piece := by simp
    rw [FileStore.makeDirectories]
    split_ifs with hpiece
    · refine changesOnly_tryMakeDirectory hpiece hlast hfront hcreated fun e => ?_
      split_ifs
      · rw [on_bind]
        have houter := ih houterFront hcreated
        match hr : on (store.makeDirectories outer) t with
        | (.error e, mid) => rwa [hr] at houter
        | (.ok (), mid) =>
          rw [hr] at houter
          have hstart : mid.start l = t.start l := houter.grows.keeps.start_eq l
          refine houter.trans (changesOnly_tryMakeDirectory hpiece hlast hfront ?_ (haccept _ mid))
          rw [hstart]
          exact hcreated
      · exact haccept _ t e
    · exact ih houterFront hcreated

/-- Writing below a directory creates directories on the way, and then puts the text at the place to
which the names lead if it succeeds. -/
theorem on_writeBelow (directory : Location) (path : List String) (text : String) (t : FileTree) :
    ∃ mid, ChangesOnly (fun _ => False)
        (OnTheWay (t.start (directory.join path)) (directory.join path).steps) t mid ∧
      ((∃ place, mid.target (directory.join path) = .ok place ∧
          mid.find? place ≠ some .directory ∧
          on (store.writeBelow directory path text) t =
            (.ok (), mid.put place (.file text))) ∨
        ∃ e, on (store.writeBelow directory path text) t = (.error e, mid)) := by
  have hfront : (directory.join path).pieces.reverse.tail.reverse <+:
      (directory.join path).pieces := by
    rw [List.tail_reverse, List.reverse_reverse]
    exact List.dropLast_prefix _
  have hchanges := changesOnly_makeDirectories (t := t) hfront fun _ hplace => hplace
  unfold FileStore.writeBelow
  rw [on_bind]
  match hr : on (store.makeDirectories (directory.join path).pieces.reverse.tail) t with
  | (.error e, mid) =>
    rw [hr] at hchanges
    exact ⟨mid, hchanges, .inr ⟨e, rfl⟩⟩
  | (.ok (), mid) =>
    rw [hr] at hchanges
    exact ⟨mid, hchanges, on_writeFile (directory.join path) text mid⟩

/-- The place of a file below a directory. -/
def placeBelow (t : FileTree) (directory : Location) (path : List String) : List String :=
  lead (t.start (directory.join path)) (directory.join path).steps

theorem Grows.placeBelow_eq (h : Grows t t') (directory : Location) (path : List String) :
    t'.placeBelow directory path = t.placeBelow directory path := by
  unfold placeBelow
  rw [h.keeps.start_eq]

theorem hasFile_of_writeBelow (h : on (store.writeBelow directory path text) t = (.ok (), t')) :
    HasFile t' (directory.join path) (t.placeBelow directory path) text := by
  obtain ⟨mid, hmid, ⟨place, htarget, hfree, hrun⟩ | ⟨e, hrun⟩⟩ :=
    on_writeBelow directory path text t
  · obtain rfl : mid.put place (.file text) = t' := congrArg Prod.snd (hrun.symm.trans h)
    obtain rfl : place = t.placeBelow directory path :=
      (eq_lead_of_target htarget).trans (hmid.grows.placeBelow_eq directory path)
    exact ⟨resolve_put htarget hfree, find?_put_file hfree⟩
  · rw [hrun] at h
    cases h

/-- A file stays as it is while others are written to other places. -/
theorem HasFile.writeBelow {l : Location} {place : List String} {text' : String}
    (h : HasFile t l place text) (hne : place ≠ t.placeBelow directory path) :
    HasFile (on (store.writeBelow directory path text') t).2 l place text := by
  obtain ⟨mid, hmid, ⟨other, htarget, hfree, hrun⟩ | ⟨e, hrun⟩⟩ :=
    on_writeBelow directory path text' t
  · rw [hrun]
    have hplace : other = t.placeBelow directory path :=
      (eq_lead_of_target htarget).trans (hmid.grows.placeBelow_eq directory path)
    exact (h.grows hmid.grows).put hfree (hplace ▸ hne)
  · rw [hrun]
    exact h.grows hmid.grows

theorem changesOnly_writeBelow (directory : Location) (path : List String) (text : String)
    (t : FileTree) :
    ChangesOnly (· = t.placeBelow directory path)
      (OnTheWay (t.start (directory.join path)) (directory.join path).steps) t
      (on (store.writeBelow directory path text) t).2 := by
  obtain ⟨mid, hmid, ⟨place, htarget, -, hrun⟩ | ⟨e, hrun⟩⟩ := on_writeBelow directory path text t
  · have hplace : place = t.placeBelow directory path :=
      (eq_lead_of_target htarget).trans (hmid.grows.placeBelow_eq directory path)
    rw [hrun]
    exact (hmid.mono (fun _ => False.elim) fun _ => id).trans (changesOnly_put_file hplace)
  · rw [hrun]
    exact hmid.mono (fun _ => False.elim) fun _ => id

theorem workingDirectory_writeBelow (directory : Location) (path : List String) (text : String)
    (t : FileTree) :
    (on (store.writeBelow directory path text) t).2.workingDirectory = t.workingDirectory :=
  (changesOnly_writeBelow directory path text t).workingDirectory_eq

theorem placeBelow_writeBelow (directory : Location) (path : List String) (text : String)
    (t : FileTree) (other : List String) :
    (on (store.writeBelow directory path text) t).2.placeBelow directory other =
      t.placeBelow directory other := by
  unfold placeBelow start
  rw [workingDirectory_writeBelow]

/-- A path of names that lead one level down each. -/
def IsPlain (path : List String) : Prop :=
  path ≠ [] ∧ ∀ name ∈ path, isStep name = true ∧ name ≠ above

/-- Where everything below a directory starts. -/
def base (t : FileTree) (directory : Location) : List String :=
  lead (t.start (directory.join ["."])) directory.steps

theorem absolute_join {name : String} (h : name ≠ "") (l : Location) (names : List String) :
    (l.join (name :: names)).absolute = (l.join ["."]).absolute := by
  unfold Location.join Location.absolute
  generalize (if l.pieces.getLast? = some "" then l.pieces.dropLast else l.pieces) = pieces
  match pieces with
  | [] => cases names <;> simp [h]
  | [piece] => by_cases hp : piece = "" <;> simp [hp]
  | piece :: piece' :: pieces => by_cases hp : piece = "" <;> simp [hp]

theorem placeBelow_eq_append (h : IsPlain path) (t : FileTree) (directory : Location) :
    t.placeBelow directory path = t.base directory ++ path := by
  obtain ⟨hne, hnames⟩ := h
  have hsteps := directory.steps_join fun name hname => (hnames name hname).1
  have hstart : t.start (directory.join path) = t.start (directory.join ["."]) := by
    cases path with
    | nil => exact absurd rfl hne
    | cons name names =>
      have hname : name ≠ "" := by
        rintro rfl
        exact absurd (hnames "" List.mem_cons_self).1 (by decide)
      rw [start, start, absolute_join hname]
  rw [placeBelow, hsteps, hstart, lead_append]
  exact lead_eq_append (fun hmem => (hnames above hmem).2 rfl) _

theorem getLast?_join (hne : path ≠ []) (directory : Location) :
    (directory.join path).pieces.getLast? = path.getLast? := by
  cases path with
  | nil => exact absurd rfl hne
  | cons name names => exact List.getLast?_append_of_ne_nil _ hne

theorem asDirectory_join (h : IsPlain path) (directory : Location) :
    (directory.join path).asDirectory = false := by
  rw [Location.asDirectory, getLast?_join h.1]
  cases hlast : path.getLast? with
  | none => rfl
  | some last => simp [(h.2 last (List.mem_of_getLast? hlast)).1]

variable {files : List Source.SourceFile}

theorem forM_cons_eq {α : Type} (a : α) (as : List α) (g : α → FileAction FileError Unit) :
    (a :: as).forM g = (g a >>= fun _ => as.forM g) := rfl

theorem forM_append_eq {α : Type} (as bs : List α) (g : α → FileAction FileError Unit) :
    (as ++ bs).forM g = (as.forM g >>= fun _ => bs.forM g) := List.forM_append

theorem HasFile.forM {l : Location} {place : List String} (h : HasFile t l place text)
    (hne : ∀ f ∈ files, place ≠ t.placeBelow directory f.path) :
    HasFile (on (files.forM fun f => store.writeBelow directory f.path f.text) t).2 l place
      text := by
  induction files generalizing t with
  | nil => exact h
  | cons f files ih =>
    have hfirst : HasFile (on (store.writeBelow directory f.path f.text) t).2 l place text :=
      h.writeBelow (hne f List.mem_cons_self)
    have hrest : ∀ g ∈ files, place ≠
        (on (store.writeBelow directory f.path f.text) t).2.placeBelow directory g.path := by
      intro g hg
      rw [placeBelow_writeBelow]
      exact hne g (List.mem_cons_of_mem _ hg)
    rw [forM_cons_eq, on_bind]
    match hr : on (store.writeBelow directory f.path f.text) t with
    | (.error e, mid) => rwa [hr] at hfirst
    | (.ok (), mid) =>
      rw [hr] at hfirst hrest
      exact ih hfirst hrest

/-- The places of the files, and the directories on the way to them. -/
def PlacedBelow (t : FileTree) (directory : Location) (files : List Source.SourceFile)
    (place : List String) : Prop :=
  ∃ f ∈ files, place = t.placeBelow directory f.path

def OnTheWayBelow (t : FileTree) (directory : Location) (files : List Source.SourceFile)
    (place : List String) : Prop :=
  ∃ f ∈ files, OnTheWay (t.start (directory.join f.path)) (directory.join f.path).steps place

/-- Writing files below a directory changes their places only, and adds directories on the way,
also when it breaks off. -/
theorem changesOnly_forM (directory : Location) (files : List Source.SourceFile) (t : FileTree) :
    ChangesOnly (t.PlacedBelow directory files) (t.OnTheWayBelow directory files) t
      (on (files.forM fun f => store.writeBelow directory f.path f.text) t).2 := by
  induction files generalizing t with
  | nil => exact .refl t
  | cons f files ih =>
    have hfirst : ChangesOnly (t.PlacedBelow directory (f :: files))
        (t.OnTheWayBelow directory (f :: files)) t
        (on (store.writeBelow directory f.path f.text) t).2 := by
      refine (changesOnly_writeBelow directory f.path f.text t).mono ?_ ?_
      · exact fun place hplace => ⟨f, List.mem_cons_self, hplace⟩
      · exact fun place hplace => ⟨f, List.mem_cons_self, hplace⟩
    rw [forM_cons_eq, on_bind]
    match hr : on (store.writeBelow directory f.path f.text) t with
    | (.error e, mid) => rwa [hr] at hfirst
    | (.ok (), mid) =>
      rw [hr] at hfirst
      -- Locations start where they did, so the other files have the places that they had.
      have hstart : ∀ l, mid.start l = t.start l := fun l => by
        rw [start, start, hfirst.workingDirectory_eq]
      refine hfirst.trans ((ih mid).mono ?_ ?_)
      · rintro place ⟨g, hg, rfl⟩
        exact ⟨g, .tail _ hg, by rw [placeBelow, placeBelow, hstart]⟩
      · rintro place ⟨g, hg, hway⟩
        rw [hstart] at hway
        exact ⟨g, .tail _ hg, hway⟩

/-- In the end a path has the text of the last file that was written to it. -/
theorem hasFile_of_forM_append {front back : List Source.SourceFile} {f : Source.SourceFile}
    (hplain : ∀ g ∈ front ++ f :: back, IsPlain g.path) (hlast : ∀ g ∈ back, g.path ≠ f.path)
    (h : on ((front ++ f :: back).forM fun f => store.writeBelow directory f.path f.text) t =
      (.ok (), t')) :
    HasFile t' (directory.join f.path) (t.placeBelow directory f.path) f.text := by
  rw [forM_append_eq, on_bind_eq_ok_iff] at h
  obtain ⟨_, mid, hfront, h⟩ := h
  rw [forM_cons_eq, on_bind_eq_ok_iff] at h
  obtain ⟨_, last, hwrite, hback⟩ := h
  have hplaces : ∀ path, mid.placeBelow directory path = t.placeBelow directory path := by
    have hchanges := changesOnly_forM directory front t
    rw [hfront] at hchanges
    intro path
    rw [placeBelow, placeBelow, start, start, hchanges.workingDirectory_eq]
  have hplaces' : ∀ path, last.placeBelow directory path = mid.placeBelow directory path := by
    have hplaces' := placeBelow_writeBelow directory f.path f.text mid
    rwa [hwrite] at hplaces'
  -- The places of the files behind it differ as their paths do.
  have hne : ∀ g ∈ back, mid.placeBelow directory f.path ≠ last.placeBelow directory g.path := by
    intro g hg heq
    rw [hplaces', placeBelow_eq_append (hplain f (by simp)),
      placeBelow_eq_append (hplain g (by simp [hg]))] at heq
    exact hlast g hg (List.append_cancel_left heq).symm
  have hkept := (hasFile_of_writeBelow hwrite).forM hne
  rw [hback, hplaces] at hkept
  exact hkept

/-- Files with different paths all have their own text in the end. -/
theorem hasFile_of_forM (hplain : ∀ f ∈ files, IsPlain f.path)
    (hnodup : (files.map (·.path)).Nodup)
    (h : on (files.forM fun f => store.writeBelow directory f.path f.text) t = (.ok (), t')) :
    ∀ f ∈ files, HasFile t' (directory.join f.path) (t.placeBelow directory f.path) f.text := by
  intro f hf
  obtain ⟨front, back, rfl⟩ := List.append_of_mem hf
  refine hasFile_of_forM_append hplain ?_ h
  rw [List.map_append, List.map_cons] at hnodup
  have hown := (List.nodup_cons.mp hnodup.of_append_right).1
  exact fun g hg heq => hown (List.mem_map.mpr ⟨g, hg, heq⟩)

theorem on_writeFiles (directory : String) (files : List Source.SourceFile) (t : FileTree) :
    on (Command.writeFiles store directory files) t =
      ((on (files.forM fun f => store.writeBelow (.ofText directory) f.path f.text) t).1.map
          fun _ => files.length,
        (on (files.forM fun f => store.writeBelow (.ofText directory) f.path f.text) t).2) := by
  unfold Command.writeFiles
  rw [on_bind]
  match on (files.forM fun f => store.writeBelow (.ofText directory) f.path f.text) t with
  | (.ok (), t') => rfl
  | (.error e, t') => rfl

/-- After a successful run, the number of files is given, and each of them can be read with its own
text if no two have one path. -/
theorem read_of_writeFiles {directory : String} {n : Nat} (hplain : ∀ f ∈ files, IsPlain f.path)
    (h : on (Command.writeFiles store directory files) t = (.ok n, t')) :
    n = files.length ∧ ((files.map (·.path)).Nodup →
      ∀ f ∈ files, t'.read ((Location.ofText directory).join f.path) = .ok f.text) := by
  unfold Command.writeFiles at h
  obtain ⟨_, mid, hr, h⟩ := on_bind_eq_ok_iff.mp h
  obtain ⟨hn, rfl⟩ : Except.ok files.length = Except.ok n ∧ mid = t' := Prod.mk.inj h
  refine ⟨(Except.ok.inj hn).symm, fun hnodup f hf => ?_⟩
  exact (hasFile_of_forM hplain hnodup hr f hf).read (asDirectory_join (hplain f hf) _)

end FileTree
end WireSchema.Files
