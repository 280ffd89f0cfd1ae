import ByteStreams.Command.Session
import ByteStreams.Proofs.Channel.Faultless

/-! # Files that stay where they are

Putting a file at one location changes nothing at another, and no path that led anywhere
leads elsewhere after it. So a file that was made can be made again, found and read.
-/

namespace ByteStreams

namespace Command

namespace FileSystem

variable {files : FileSystem} {location there : Location} {node other : Node}

private theorem lookup_filter_ne (nodes : List (Location × Node)) (different : there ≠ location) :
    (nodes.filter fun (place, _) => place ≠ location).lookup there = nodes.lookup there := by
  induction nodes with
  | nil => rfl
  | cons entry nodes induction =>
      rcases entry with ⟨place, node⟩
      by_cases same : place = location
      · have passed : (there == place) = false := by simpa [same] using different
        rw [List.filter_cons_of_neg (by simpa using same), induction, List.lookup_cons, passed]
      · rw [List.filter_cons_of_pos (by simpa using same), List.lookup_cons, List.lookup_cons,
          induction]

private theorem any_put (above : Location)
    (some' : files.nodes.any (fun (place, _) => place.isWithin above) = true) :
    (files.put location node).nodes.any (fun (place, _) => place.isWithin above) = true := by
  rcases List.any_eq_true.mp some' with ⟨⟨place, node'⟩, member, holds⟩
  by_cases same : place = location
  · subst same
    exact List.any_eq_true.mpr ⟨(place, node), List.mem_cons_self .., holds⟩
  · have kept : (place, node') ∈ files.nodes.filter fun (place, _) => place ≠ location :=
      List.mem_filter.mpr ⟨member, by simpa using same⟩
    exact List.any_eq_true.mpr ⟨_, List.mem_cons_of_mem _ kept, holds⟩

theorem lookup_put_of_ne (found : files.lookup there = some other) (different : there ≠ location) :
    (files.put location node).lookup there = some other := by
  have passed : (there == location) = false := by simpa using different
  have direct : (files.put location node).nodes.lookup there = files.nodes.lookup there := by
    rw [put, List.lookup_cons, passed]
    exact lookup_filter_ne _ different
  unfold lookup at found ⊢
  rw [direct]
  cases named : files.nodes.lookup there with
  | some node' =>
      rw [named] at found
      exact found
  | none =>
      rw [named] at found
      simp only [Bool.or_eq_true] at found ⊢
      split at found
      · -- A folder is one by what is below it, and all of that is still there.
        rename_i above
        rw [if_pos (above.imp_right (any_put there))]
        exact found
      · cases found

theorem walk_put {here target : Location} {parts : List String}
    (walked : files.walk here parts = .ok target) (free : files.lookup location ≠ some .folder) :
    (files.put location node).walk here parts = .ok target := by
  induction parts generalizing here with
  | nil => exact walked
  | cons part rest induction =>
      rw [walk] at walked ⊢
      by_cases stays : part = "" ∨ part = "."
      · rw [if_pos stays] at walked ⊢
        exact induction walked
      · rw [if_neg stays] at walked ⊢
        by_cases up : part = ".."
        · rw [if_pos up] at walked ⊢
          exact induction walked
        · rw [if_neg up] at walked ⊢
          cases reached : here.child part with
          | error fault =>
              rw [reached] at walked
              cases walked
          | ok below =>
              simp only [reached] at walked ⊢
              split at walked
              · rename_i folder
                have different : below ≠ location := by
                  rintro rfl
                  exact free folder
                rw [lookup_put_of_ne folder different]
                exact induction walked
              · cases walked
              · cases walked

/-! ## Paths to files -/

/-- Where there is a file at the location, the path leads to it; where there is nothing, one can
be made. -/
structure Leads (files : FileSystem) (path : String) (location : Location) : Prop where
  short : path.utf8ByteSize ≤ Path.longestPath
  named : ∃ last before, (Path.parts path).reverse = last :: before ∧ Path.isName last = true ∧
    files.walkToName path before.reverse last = .ok location

namespace Leads

variable {path : String}

theorem put (leads : files.Leads path location) (free : files.lookup there ≠ some .folder) :
    (files.put there node).Leads path location := by
  rcases leads with ⟨short, last, before, parts, isName, walked⟩
  refine ⟨short, last, before, parts, isName, ?_⟩
  unfold walkToName at walked ⊢
  split at walked
  · cases walked
  · rename_i here reached
    rw [walk_put reached free]
    exact walked

theorem locate (leads : files.Leads path location) {content : Bytes}
    (file : files.lookup location = some (.file content)) : files.locate path = .ok location := by
  rcases leads with ⟨short, last, before, parts, isName, walked⟩
  rw [FileSystem.locate, if_neg (Nat.not_lt.mpr short), parts]
  simp [isName, walked, file]

theorem create (leads : files.Leads path location) {content : Bytes}
    (file : files.lookup location = some (.file content)) :
    files.create path = .ok (location, files.put location (.file [])) := by
  rcases leads with ⟨short, last, before, parts, isName, walked⟩
  rw [FileSystem.create, if_neg (Nat.not_lt.mpr short), parts]
  simp [isName, walked, file]

end Leads

theorem free_of_file {content : Bytes} (file : files.lookup location = some (.file content)) :
    files.lookup location ≠ some .folder := by
  rw [file]
  simp

theorem leads_of_create {path : String} {made : FileSystem} {content : Bytes}
    (created : files.create path = .ok (location, made))
    (file : made.lookup location = some (.file content)) :
    files.Leads path location ∧ made = files.put location (.file []) ∧
      files.lookup location ≠ some .folder := by
  unfold create at created
  split at created
  · cases created
  rename_i short
  split at created
  · cases created
  rename_i last before parts
  split at created
  · rename_i isName
    split at created
    · cases created
    rename_i reached walked
    have leads : files.Leads path reached :=
      ⟨Nat.not_lt.mp short, last, before, parts, isName, walked⟩
    split at created
    · cases created
    · cases created
    · rename_i device same
      cases created
      rw [same] at file
      cases file
    · rename_i same
      cases created
      exact ⟨leads, rfl, by simp [same]⟩
    · rename_i nothing
      split at created
      · cases created
      · cases created
        exact ⟨leads, rfl, by simp [nothing]⟩
  · split at created
    · cases created
    · split at created
      · cases created
      · cases created

def Holds (files : FileSystem) (path : String) (content : Bytes) : Prop :=
  ∃ location, files.locate path = .ok location ∧ files.lookup location = some (.file content)

theorem Leads.holds_put {path : String} {content : Bytes} (leads : files.Leads path location)
    (file : files.lookup location = some (.file content)) (data : Bytes) :
    (files.put location (.file data)).Holds path data := by
  have held := files.lookup_put_self location (.file data)
  exact ⟨location, (leads.put (free_of_file file)).locate held, held⟩

theorem Holds.content? {path : String} {content : Bytes} (holds : files.Holds path content) :
    files.content? path = some content := by
  rcases holds with ⟨location, located, file⟩
  simp [FileSystem.content?, located, file, Except.toOption]

theorem Holds.unique {path : String} {content another : Bytes} (holds : files.Holds path content)
    (also : files.Holds path another) : content = another :=
  Option.some.inj (holds.content?.symm.trans also.content?)

end FileSystem

namespace Surroundings

variable {before ready : Surroundings} {output : Place}

def Opens (before : Surroundings) : Place → Prop
  | .standard => True
  | .path path => ∃ location, before.files.locate path = .ok location

/-- An output that does not fail, and what there is once it is made: the standard output, or a
file. -/
inductive Makes (before : Surroundings) : Place → Surroundings → Prop
  | standard : Makes before .standard before
  | file {path : String} {location : Location} {files : FileSystem}
      (created : before.files.create path = .ok (location, files))
      (ordinary : files.lookup location = some (.file [])) :
      Makes before (.path path) { before with files := files }

/-- Data went to an output, and nothing to another stream or into the log. -/
inductive Delivers (ready : Surroundings) (data : Bytes) : Place → Surroundings → Prop
  | standard : Delivers ready data .standard (ready.emit data)
  | file {path : String} {files : FileSystem} (holds : files.Holds path data) :
      Delivers ready data (.path path) { ready with files := files }

/-- An input has an end and gives these bytes without a failure, in some pieces and perhaps with
interruptions. -/
def Supplies (before : Surroundings) (input : Place) (data : Bytes) : Prop :=
  ∃ source, before.feed input = .ends source ∧ source.Faultless ∧ source.remaining = data

theorem Makes.store {path : String} (makes : before.Makes (.path path) ready) (data : Bytes) :
    ∃ delivered, ready.store path data = (.ok (), delivered) ∧
      Delivers ready data (.path path) delivered := by
  cases makes with
  | @file path location files created ordinary =>
      rcases FileSystem.leads_of_create created ordinary with ⟨leads, rfl, free⟩
      -- Delivering makes the file once more before it puts the data there.
      let made := before.files.put location (.file [])
      have madeLeads : made.Leads path location := leads.put free
      have again : (made.put location (.file [])).Leads path location :=
        madeLeads.put (FileSystem.free_of_file ordinary)
      have taken := again.holds_put (FileSystem.lookup_put_self ..) data
      refine ⟨_, ?_, .file taken⟩
      simp only [Surroundings.store, madeLeads.create ordinary, made,
        FileSystem.lookup_put_self]

theorem output_emit (surroundings : Surroundings) (data : Bytes) :
    (surroundings.emit data).output = surroundings.output ++ data := by
  simp [output, emit, Bytes.join_eq]

theorem Makes.delivered {data : Bytes} {delivered : Surroundings}
    (makes : before.Makes output ready) (delivers : ready.Delivers data output delivered) :
    delivered.entries = before.entries ∧ delivered.complaints = before.complaints := by
  cases delivers with
  | standard | file =>
      cases makes
      exact ⟨rfl, rfl⟩

theorem Makes.delivered_standard {data : Bytes} {delivered : Surroundings}
    (makes : before.Makes .standard ready) (delivers : ready.Delivers data .standard delivered) :
    delivered.output = before.output ++ data := by
  cases makes
  cases delivers
  exact output_emit before data

theorem Makes.delivered_file {path : String} {data : Bytes} {delivered : Surroundings}
    (makes : before.Makes (.path path) ready)
    (delivers : ready.Delivers data (.path path) delivered) :
    delivered.output = before.output ∧ delivered.files.Holds path data := by
  cases makes
  cases delivers with
  | file holds => exact ⟨rfl, holds⟩

end Surroundings

end Command

end ByteStreams
