import Mathlib.Data.List.Basic
import TableMapper.Files.Tree
import TableMapper.KeyMap
import TableMapper.Proofs.Files.Path

/-! # Files that stay

Work on a tree of files leaves directories where they are, and files but for those that it writes. The place
that a path leads to is the same before and after.
-/

namespace TableMapper.FileTree

variable {here : Place} {t t' : FileTree here} {place q : Place} {path contents : String}

theorem lookup_insertNode {node : FileNode} {nodes : List (Place × FileNode)} :
    (insertNode place node nodes).lookup q = if q = place then some node else nodes.lookup q := by
  induction nodes with
  | nil => simp [insertNode, lookup_cons_eq]
  | cons e rest ih =>
      obtain ⟨other, old⟩ := e
      unfold insertNode
      split
      · next same => subst same; simp only [lookup_cons_eq]; grind
      · split
        · simp only [lookup_cons_eq]
        · simp only [lookup_cons_eq, ih]; grind

/-- There is nothing to insert on the way to the working directory. -/
theorem node?_insert {node : FileNode} (free : t.node? place ≠ some .directory) :
    (t.insert place node).node? q = if q = place then some node else t.node? q := by
  unfold node? at free ⊢
  by_cases above : q <+: here
  · have other : q ≠ place := by
      rintro rfl
      exact free (if_pos above)
    rw [if_pos above, if_neg other, if_pos above]
  · rw [if_neg above, if_neg above]
    exact lookup_insertNode

/-! ## Where paths lead -/

/-- The place that parts lead to from a place, if everything on the way is a directory. -/
def destination (place : Place) : List Path.Part → Place
  | [] => place
  | .root :: rest => destination [] rest
  | .current :: rest => destination place rest
  | .up :: rest => destination place.dropLast rest
  | .named name :: rest => destination (place ++ [name]) rest

/-- The place that a path leads to from a working directory if it leads anywhere, whatever there is in the tree. -/
def leadsTo (here : Place) (path : String) : Place := destination here (Path.parts path)

theorem destination_append_named {parts : List Path.Part} (name : String) :
    destination place (parts ++ [.named name]) = destination place parts ++ [name] := by
  fun_induction destination place parts <;> simp_all [destination]

theorem leadsTo_join {directory name : String} (named : Path.IsFileName name) :
    leadsTo here (Path.join directory name) = leadsTo here directory ++ [name] := by
  rw [leadsTo, Path.parts_join named, destination_append_named, leadsTo]

/-- Directories stay directories. -/
def Keeps (t t' : FileTree here) : Prop := ∀ q, t.node? q = some .directory → t'.node? q = some .directory

theorem Keeps.trans {t'' : FileTree here} (first : Keeps t t') (second : Keeps t' t'') : Keeps t t'' :=
  fun q held => second q (first q held)

theorem walk_cons {part : Path.Part} {parts : List Path.Part} (led : t.walk place (part :: parts) = .ok q) :
    t.node? place = some .directory := by
  unfold walk at led
  split at led
  · cases led
  · cases led
  · assumption

theorem destination_of_walk {parts : List Path.Part} (led : t.walk place parts = .ok q) :
    destination place parts = q := by
  induction parts generalizing place with
  | nil => exact Except.ok.inj led
  | cons part parts ih =>
      have passed := walk_cons led
      simp only [walk, passed] at led
      cases part with
      | root | current | up | named => exact ih led

/-- A path that leads to a place leads there as long as directories stay. -/
theorem Keeps.walk_eq {parts : List Path.Part} (keeps : Keeps t t') (led : t.walk place parts = .ok q) :
    t'.walk place parts = .ok q := by
  induction parts generalizing place with
  | nil => exact led
  | cons part parts ih =>
      have before := walk_cons led
      have after := keeps place before
      simp only [walk, before] at led
      simp only [walk, after]
      cases part with
      | root | current | up | named => exact ih led

theorem Keeps.place_eq (keeps : Keeps t t') (led : t.place path = .ok q) : t'.place path = .ok q := by
  unfold FileTree.place at led ⊢
  split
  · next blank => simp [blank] at led
  · next written => exact keeps.walk_eq (by simpa [written] using led)

theorem leadsTo_of_place (led : t.place path = .ok q) : leadsTo here path = q := by
  unfold FileTree.place at led
  split at led
  · cases led
  · exact destination_of_walk led

/-! ## Work on trees -/

/-- What a directory is created in stays as it is. -/
theorem node?_of_createAlong {parts : List Path.Part} (created : t.createAlong place parts = .ok t') {q : Place}
    {node : FileNode} (held : t.node? q = some node) : t'.node? q = some node := by
  induction parts generalizing t place with
  | nil => exact Except.ok.inj created ▸ held
  | cons part parts ih =>
      cases part with
      | root | current | up => exact ih created held
      | named name =>
          simp only [createAlong] at created
          split at created
          · exact ih created held
          · cases created
          · next absent =>
            apply ih created
            rw [node?_insert (by simp [absent]), if_neg ?_]
            · exact held
            · rintro rfl
              cases absent.symm.trans held

/-- A file is written at the place that its path leads to, where there is no directory. -/
theorem write_eq_ok (written : t.write path contents = .ok t') : ∃ place, t.place path = .ok place ∧
    t.node? place ≠ some .directory ∧ t' = t.insert place (.file contents) := by
  unfold write at written
  cases led : t.place path with
  | error fault => simp [led, bind, Except.bind] at written
  | ok place =>
      simp only [led, bind, Except.bind] at written
      split at written
      · cases written
      · next free => exact ⟨place, rfl, free, (Except.ok.inj written).symm⟩

/-- What is left of a tree when files are written at some places: directories, and files at other places. -/
structure LeavesBut (written : Place → Prop) (t t' : FileTree here) : Prop where
  keeps : Keeps t t'
  stays : ∀ q contents, ¬ written q → t.node? q = some (.file contents) → t'.node? q = some (.file contents)

theorem LeavesBut.refl (written : Place → Prop) (t : FileTree here) : LeavesBut written t t :=
  ⟨fun _ => id, fun _ _ _ => id⟩

theorem LeavesBut.trans {written : Place → Prop} {t'' : FileTree here} (first : LeavesBut written t t')
    (second : LeavesBut written t' t'') : LeavesBut written t t'' :=
  ⟨first.keeps.trans second.keeps,
    fun q contents apart held => second.stays q contents apart (first.stays q contents apart held)⟩

theorem LeavesBut.mono {written written' : Place → Prop} (leaves : LeavesBut written t t')
    (within : ∀ q, written q → written' q) : LeavesBut written' t t' :=
  ⟨leaves.keeps, fun q contents apart => leaves.stays q contents fun here => apart (within q here)⟩

theorem leavesBut_of_createDirectories (created : t.createDirectories path = .ok t') (written : Place → Prop) :
    LeavesBut written t t' :=
  ⟨fun _ => node?_of_createAlong created, fun _ _ _ => node?_of_createAlong created⟩

theorem leavesBut_of_write (written : t.write path contents = .ok t') : ∃ place, t'.place path = .ok place ∧
    t'.node? place = some (.file contents) ∧ LeavesBut (· = place) t t' := by
  obtain ⟨place, led, free, rfl⟩ := write_eq_ok written
  have leaves : LeavesBut (· = place) t (t.insert place (.file contents)) := by
    refine ⟨fun q held => ?_, fun q kept apart held => ?_⟩
    · have other : q ≠ place := by
        rintro rfl
        exact free held
      rw [node?_insert free, if_neg other]
      exact held
    · rw [node?_insert free, if_neg apart]
      exact held
  exact ⟨place, leaves.keeps.place_eq led, by rw [node?_insert free, if_pos rfl], leaves⟩

end TableMapper.FileTree
