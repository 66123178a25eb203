import TableMapper.Files.Access
import TableMapper.Proofs.Files.Tree
import TableMapper.Proofs.Outcome

/-! # Directories that are created

Creating the directories of a path puts directories where there was nothing, all of them along the path. Files
stay what they are, and no others come. `Lays` says so of any access to files, and a tree of files is one of
which it holds.
-/

namespace TableMapper

variable {σ π : Type} {view : σ → π → Option FileNode} {along : String → π → Prop} {s s' s'' : σ}
  {directories : List String}

/-- The same files are there before and after, and along some paths there are directories. -/
structure Laid (view : σ → π → Option FileNode) (along : String → π → Prop) (directories : List String)
    (s s' : σ) : Prop where
  files : ∀ q contents, view s' q = some (.file contents) ↔ view s q = some (.file contents)
  added : ∀ q, view s' q = some .directory ↔
    view s q = some .directory ∨ ∃ d ∈ directories, along d q

namespace Laid

theorem refl (s : σ) : Laid view along [] s s :=
  ⟨fun _ _ => .rfl, fun _ => by simp⟩

theorem cons {d : String} (first : Laid view along [d] s s') (rest : Laid view along directories s' s'') :
    Laid view along (d :: directories) s s'' := by
  refine ⟨fun q contents => (rest.files q contents).trans (first.files q contents), fun q => ?_⟩
  have one := first.added q
  rw [List.exists_mem_cons_iff] at one ⊢
  rw [rest.added, one, or_assoc]
  simp

end Laid

/-- An access to files, seen as what stands at places, creates the directories along a path and does nothing
else to create a directory. -/
def FileAccess.Lays (fs : FileAccess (StateM σ)) (view : σ → π → Option FileNode)
    (along : String → π → Prop) : Prop :=
  ∀ path s s', (fs.createDirectories path).run.run s = (.ok (), s') → Laid view along [path] s s'

/-! ## Trees of files -/

namespace FileTree

variable {here : Place} {t t' : FileTree here} {place : Place} {path : String} {parts : List Path.Part}

/-- The places of the directories along parts, from a place. -/
def placesAlong (place : Place) : List Path.Part → List Place
  | [] => []
  | .root :: rest => placesAlong [] rest
  | .current :: rest => placesAlong place rest
  | .up :: rest => placesAlong place.dropLast rest
  | .named name :: rest => (place ++ [name]) :: placesAlong (place ++ [name]) rest

theorem createAlong_eq_ok (created : t.createAlong place parts = .ok t') (q : Place) :
    t'.node? q = if q ∈ placesAlong place parts then some .directory else t.node? q := by
  induction parts generalizing t place with
  | nil => simp [placesAlong, Except.ok.inj created]
  | cons part parts ih =>
      cases part with
      | root | current | up => exact ih created
      | named name =>
          simp only [createAlong] at created
          simp only [placesAlong, List.mem_cons]
          split at created
          · next there =>
            rw [ih created]
            by_cases same : q = place ++ [name]
            · simp [same, there]
            · simp [same]
          · cases created
          · next absent =>
            rw [ih created, node?_insert (by simp [absent])]
            by_cases same : q = place ++ [name] <;> simp [same]

theorem lays_access :
    FileAccess.Lays access (FileTree.node? : FileTree here → Place → Option FileNode) fun path q => q ∈ placesAlong here (Path.parts path) := by
  intro path t t' ran
  have created : t.createAlong here (Path.parts path) = .ok t' := by
    change changing (·.createDirectories path) t = _ at ran
    simp only [changing] at ran
    split at ran
    · next made => cases ran; exact made
    · cases ran
  refine ⟨fun q contents => ⟨fun held => ?_, node?_of_createAlong created⟩, fun q => ?_⟩
  · rw [createAlong_eq_ok created] at held
    split at held
    · cases held
    · exact held
  · rw [createAlong_eq_ok created]
    simp only [List.mem_singleton, exists_eq_left]
    by_cases passed : q ∈ placesAlong here (Path.parts path) <;> simp [passed]

end FileTree

end TableMapper
