import CouponDesk.Run
import Mathlib.Tactic.SplitIfs

/-!
# Databases between runs

What a run leaves at the address of its database is what the next run finds there.  Nothing else
that a run does to files touches a database.
-/

set_option autoImplicit false

namespace CouponDesk

namespace Node

variable {new node found : Node} {entries : List (String × Node)} {place names : List String}

/-! ## Trees -/

@[simp]
theorem find?_nil (node : Node) : node.find? [] = some node := by
  cases node <;> rfl

theorem find?_append (node : Node) (place names : List String) :
    node.find? (place ++ names) = (node.find? place).bind (find? names) := by
  induction place generalizing node with
  | nil => simp
  | cons name rest ih =>
      cases node with
      | folder entries =>
          simp only [List.cons_append, find?, Option.bind_assoc]
          exact congrArg _ (funext ih)
      | file content => rfl
      | database tables => rfl

/-- An entry has been replaced under its name. -/
theorem lookup_replace (entries : List (String × Node)) (name other : String) (inner : Node) :
    (entries.map fun entry => if entry.1 = name then (name, inner) else entry).lookup other =
      if other = name then (entries.lookup name).map fun _ => inner else entries.lookup other := by
  induction entries with
  | nil => simp
  | cons entry rest ih =>
      obtain ⟨key, node⟩ := entry
      rw [List.map_cons]
      by_cases named : key = name
      · subst named
        rw [if_pos rfl, List.lookup_cons, List.lookup_cons, List.lookup_cons, ih, beq_self_eq_true]
        by_cases asked : other = key
        · simp [asked]
        · simp [asked, beq_eq_false_iff_ne.mpr asked]
      · rw [if_neg named, List.lookup_cons, List.lookup_cons, List.lookup_cons, ih,
          beq_eq_false_iff_ne.mpr (Ne.symm named)]
        by_cases first : other = key
        · subst first
          simp [named]
        · simp [beq_eq_false_iff_ne.mpr first]

/-- What stands in a folder after something was put below it. -/
theorem find?_put_cons (entries : List (String × Node)) (name other : String)
    (rest more : List String) :
    (put new (name :: rest) (.folder entries)).find? (other :: more) =
      if other = name then
        (put new rest ((entries.lookup name).getD (.folder []))).find? more
      else (entries.lookup other).bind (find? more) := by
  rw [put]
  cases found : entries.lookup name with
  | some inner =>
      simp only [find?, lookup_replace, found, Option.getD_some]
      split_ifs <;> rfl
  | none =>
      simp only [find?, List.lookup_append, Option.getD_none]
      split_ifs with asked
      · subst asked
        simp [found]
      · simp [List.lookup_cons, beq_eq_false_iff_ne.mpr asked]

/-- What was put into a folder stands there. -/
theorem find?_put_self (name : String)
    (folder : node.find? place = some (.folder entries)) :
    (put new (place ++ [name]) node).find? (place ++ [name]) = some new := by
  induction place generalizing node with
  | nil =>
      obtain rfl : node = .folder entries := by simpa using folder
      rw [List.nil_append, find?_put_cons, if_pos rfl, put, find?_nil]
  | cons first rest ih =>
      cases node with
      | folder inside =>
          obtain ⟨inner, entry, below⟩ := Option.bind_eq_some_iff.mp folder
          rw [List.cons_append, find?_put_cons, if_pos rfl, entry, Option.getD_some]
          exact ih below
      | file content => cases folder
      | database tables => cases folder

theorem find?_empty (names : List String) (tables : Relational.Tables) :
    (Node.folder []).find? names ≠ some (.database tables) := by
  cases names <;> nofun

/-- A new folder where nothing was neither hides a database nor brings one. -/
theorem find?_put_folder (missing : node.find? place = none) (tables : Relational.Tables) :
    (put (.folder []) place node).find? names = some (.database tables) ↔
      node.find? names = some (.database tables) := by
  induction place generalizing node names with
  | nil => simp at missing
  | cons name rest ih =>
      cases node with
      | folder inside =>
          cases names with
          | nil =>
              rw [put]
              cases inside.lookup name <;> exact ⟨nofun, nofun⟩
          | cons other more =>
              rw [find?_put_cons, find?]
              split_ifs with asked
              · subst asked
                cases entry : inside.lookup other with
                | some inner =>
                    rw [find?, entry] at missing
                    exact ih missing
                | none =>
                    refine ⟨fun found => absurd found ?_, nofun⟩
                    cases rest with
                    | nil => exact find?_empty more tables
                    | cons next later =>
                        exact fun found => find?_empty more tables ((ih rfl).mp found)
              · rfl
      | file content => rfl
      | database content => rfl

/-! ## Folders -/

def LeadTo (node : Node) (names : List String) : Prop :=
  ∃ entries, node.find? names = some (.folder entries)

/-- What leads to a folder goes through folders only. -/
theorem LeadTo.front (folder : node.LeadTo (place ++ names)) : node.LeadTo place := by
  cases names with
  | nil => rwa [List.append_nil] at folder
  | cons name rest =>
      obtain ⟨entries, found⟩ := folder
      rw [find?_append] at found
      obtain ⟨inner, there, below⟩ := Option.bind_eq_some_iff.mp found
      cases inner with
      | folder others => exact ⟨others, there⟩
      | file content => cases below
      | database tables => cases below

/-- A folder stays one when something is put where no folder was. -/
theorem leadTo_put (folder : node.LeadTo names) (other : ¬ node.LeadTo place) :
    (put new place node).LeadTo names := by
  induction place generalizing node names with
  | nil =>
      -- Without a folder at the root there is none anywhere.
      have root : node.LeadTo [] := LeadTo.front folder
      exact absurd root other
  | cons name rest ih =>
      cases node with
      | folder inside =>
          cases names with
          | nil =>
              rw [put]
              cases inside.lookup name <;> exact ⟨_, rfl⟩
          | cons next more =>
              obtain ⟨entries, found⟩ := folder
              unfold LeadTo
              rw [find?_put_cons]
              split_ifs with asked
              · subst asked
                obtain ⟨inner, entry, below⟩ := Option.bind_eq_some_iff.mp found
                rw [entry, Option.getD_some]
                refine ih ⟨entries, below⟩ fun ⟨others, there⟩ => other ⟨others, ?_⟩
                rw [find?, entry, Option.bind_some, there]
              · exact ⟨entries, found⟩
      | file content => exact folder
      | database tables => exact folder

end Node

namespace Files

variable {files files' : Files} {place start names : List String} {path : String}

/-! ## Paths -/

/-- Names that lead somewhere lead there still where all folders are left. -/
theorem follow_of_folders (kept : ∀ q, files.root.LeadTo q → files'.root.LeadTo q)
    (found : files.follow start names = .ok place) : files'.follow start names = .ok place := by
  induction names generalizing start with
  | nil => exact found
  | cons name rest ih =>
      rw [follow] at found ⊢
      split at found
      next => cases found
      next entries folder =>
        obtain ⟨others, still⟩ := kept start ⟨entries, folder⟩
        simp only [still]
        split_ifs at found ⊢ <;> exact ih found
      next => cases found

/-- Only the last of some names may lead to something else than a folder, and it is a name of its
own then. -/
theorem follow_parent (some : names ≠ []) (found : files.follow start names = .ok place)
    (other : ¬ files.root.LeadTo place) :
    ∃ parent name, place = parent ++ [name] ∧ files.root.LeadTo parent := by
  induction names generalizing start with
  | nil => exact absurd rfl some
  | cons name rest ih =>
      rw [follow] at found
      split at found
      next => cases found
      next entries folder =>
        have here : files.root.LeadTo start := ⟨entries, folder⟩
        have above : files.root.LeadTo start.dropLast := by
          obtain ⟨last, same⟩ := List.dropLast_prefix start
          rw [← same] at here
          exact here.front
        cases rest with
        | nil =>
            split_ifs at found <;> cases found
            · exact absurd here other
            · exact absurd above other
            · exact ⟨start, name, rfl, here⟩
        | cons next more =>
            split_ifs at found <;> exact ih (List.cons_ne_nil _ _) found
      next => cases found

theorem names_ne_nil (path : String) (nonempty : path ≠ "") : Files.names path ≠ [] := by
  have pieces : Text.splitOn '/' path.toList ≠ [] := by
    cases path.toList with
    | nil => exact List.cons_ne_nil _ _
    | cons c rest =>
        rw [Text.splitOn]
        split_ifs
        · exact List.cons_ne_nil _ _
        · cases Text.splitOn '/' rest <;> exact List.cons_ne_nil _ _
  intro none
  obtain ⟨own, dot⟩ := List.append_eq_nil_iff.mp none
  rw [List.filter_eq_nil_iff] at own
  obtain ⟨before, last, same⟩ := (List.eq_nil_or_concat _).resolve_left pieces
  rw [same] at own dot
  have empty : String.ofList last = "" := by
    simpa using own (String.ofList last) (by simp)
  simp [nonempty, empty] at dot

/-- Where a path leads that leads to no folder, the folder above exists. -/
theorem locate_parent (located : files.locate path = .ok place)
    (other : ¬ files.root.LeadTo place) :
    ∃ parent name, place = parent ++ [name] ∧ files.root.LeadTo parent := by
  unfold locate at located
  split at located
  next => cases located
  next sound =>
    refine follow_parent (names_ne_nil path ?_) located other
    rintro rfl
    cases sound

/-! ## Writing -/

/-- What was written at a path stands there, and the path leads there still. -/
theorem find?_write (node : Node) (located : files.locate path = .ok place)
    (other : ¬ files.root.LeadTo place) :
    (files.write path node).root.find? place = some node ∧
      (files.write path node).locate path = .ok place := by
  obtain ⟨parent, name, rfl, entries, folder⟩ := locate_parent located other
  have written : files.write path node =
      { files with root := node.put (parent ++ [name]) files.root } := by
    rw [write, located]
  rw [written]
  refine ⟨Node.find?_put_self name folder, ?_⟩
  unfold locate at located ⊢
  split at located
  next => cases located
  next => exact follow_of_folders (fun q still => Node.leadTo_put still other) located

/-- Folders that are made neither hide a database nor bring one. -/
theorem makeFrom_database (made : files.makeFrom start names = .ok files') (q : List String)
    (tables : Relational.Tables) :
    files'.root.find? q = some (.database tables) ↔
      files.root.find? q = some (.database tables) := by
  induction names generalizing files start with
  | nil =>
      cases made
      rfl
  | cons name rest ih =>
      rw [makeFrom] at made
      split at made
      next => exact ih made
      next =>
        split at made
        next => exact ih made
        next =>
          split at made
          next => cases made
          next =>
            simp only at made
            split at made
            next missing => exact (ih made).trans (Node.find?_put_folder missing tables)
            next => exact ih made
            next => cases made

end Files

namespace Run

open Relational

variable {files files' : Files} {place : List String} {path url : String} {access : Access}
  {t : Tables} {address : Address}

/-! ## Databases -/

/-- The tables of the database at a place.  Where none stands there are none yet. -/
def tablesAt (files : Files) (place : List String) : Tables :=
  match files.root.find? place with
  | some (.database t) => t
  | _ => {}

theorem tablesAt_congr (same : ∀ t, files'.root.find? place = some (.database t) ↔
    files.root.find? place = some (.database t)) :
    tablesAt files' place = tablesAt files place := by
  unfold tablesAt
  split
  · rename_i t stands
    rw [(same t).mp stands]
  · rename_i other
    split
    · rename_i t stands
      exact absurd ((same t).mpr stands) (other t)
    · rfl

theorem tablesAt_makeFolder (made : makeFolder files url = .ok files') :
    tablesAt files' place = tablesAt files place := by
  refine tablesAt_congr fun t => ?_
  unfold makeFolder at made
  split at made
  next => cases made; rfl
  next path _ =>
    split at made
    next there made' =>
      cases made
      unfold Files.makeFolders at made'
      split at made'
      next => cases made'
      next => exact Files.makeFrom_database made' place t
    next => cases made

/-- Whoever opens tables opens those that stand there. -/
theorem openTables_eq_ok (located : files.locate path = .ok place)
    (opened : openTables files path access = .ok t) :
    t = tablesAt files place ∧ ¬ files.root.LeadTo place := by
  unfold openTables at opened
  unfold tablesAt Node.LeadTo
  rw [located] at opened
  simp only at opened
  split at opened
  next stands =>
    cases opened
    rw [stands]
    exact ⟨rfl, nofun⟩
  next empty =>
    cases opened
    rw [empty]
    exact ⟨rfl, nofun⟩
  next missing =>
    cases opened
    rw [missing]
    exact ⟨rfl, nofun⟩
  next => cases opened

/-- What is kept at an address that may be written to stands there afterwards, and whoever opens the
path again finds it. -/
theorem tablesAt_keep (opened : openTables files path address.access = .ok t)
    (located : files.locate path = .ok place) (stored : address.place = .file path)
    (writable : address.access ≠ .readOnly) (t' : Tables) :
    tablesAt (keep files address t') place = t' ∧
      ∀ access, openTables (keep files address t') path access = .ok t' := by
  have written : keep files address t' = files.write path (.database t') := by
    rw [keep, stored]
    exact if_neg writable
  obtain ⟨stands, again⟩ :=
    Files.find?_write (.database t') located (openTables_eq_ok located opened).2
  rw [written, tablesAt, stands]
  refine ⟨rfl, fun access => ?_⟩
  rw [openTables, again]
  simp only [stands]

end Run

end CouponDesk
