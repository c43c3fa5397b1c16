import Liz.Storage.Files

/-!
# Which identifiers name a file of their own

An identifier becomes part of a path as it is. Without a separator it is one name in the directory
of its kind; with one, what stands before it leads somewhere else, or back into the directory and to
the file of the identifier that stands behind it.
-/

namespace Liz

open Paths

/-- How the name of a record's file ends. -/
def RecordKind.extension : RecordKind → String
  | turnLog => ".jsonl"
  | _ => ".json"

theorem RecordKind.file_eq (paths : StoragePaths) (kind : RecordKind) (id : String) :
    kind.file paths id = Paths.join (kind.dir paths) (id ++ kind.extension) := by
  cases kind <;> rfl

theorem RecordKind.slash_not_mem_extension (kind : RecordKind) : '/' ∉ kind.extension.toList := by
  cases kind <;> decide

/-- A name with an extension goes down. -/
theorem RecordKind.named (kind : RecordKind) (id : String) : Named (id ++ kind.extension) := by
  have hlength : 5 ≤ (id ++ kind.extension).toList.length := by
    rw [String.toList_append, List.length_append]
    refine le_trans ?_ (Nat.le_add_left _ _)
    cases kind <;> decide
  refine ⟨?_, ?_, ?_⟩
  · intro h
    rw [h] at hlength
    exact absurd hlength (by decide)
  · intro h
    rw [h] at hlength
    exact absurd hlength (by decide)
  · intro h
    rw [h] at hlength
    exact absurd hlength (by decide)

section Locations

variable (cwd : Location) (paths : StoragePaths) (kind : RecordKind)

/-- Where the file of an identifier is. -/
def RecordKind.location (id : String) : Location := locate cwd (kind.file paths id)

/-- Where the directory is that the files of a kind belong to. -/
def RecordKind.home : Location := locate cwd (kind.dir paths)

/-- An identifier without a separator names a file of the directory. -/
theorem location_of_plain {id : String} (h : '/' ∉ id.toList) :
    kind.location cwd paths id = kind.home cwd paths ++ [id ++ kind.extension] := by
  have hname : '/' ∉ (id ++ kind.extension).toList := by
    rw [String.toList_append, List.mem_append]
    exact not_or_intro h kind.slash_not_mem_extension
  rw [RecordKind.location, RecordKind.file_eq, locate_join, isAbsolute_eq_false hname,
    segments_eq_singleton hname]
  exact enter_of_named (kind.named id) _

/-- An identifier with a separator names the file of what stands behind its last one, wherever the
rest of it leads. -/
theorem location_of_slash (leading last : String) (h : '/' ∉ last.toList) :
    ∃ here, kind.location cwd paths (leading ++ "/" ++ last) = here ++ [last ++ kind.extension] := by
  have hname : '/' ∉ (last ++ kind.extension).toList := by
    rw [String.toList_append, List.mem_append]
    exact not_or_intro h kind.slash_not_mem_extension
  have hpath : leading ++ "/" ++ last ++ kind.extension =
      leading ++ "/" ++ (last ++ kind.extension) := String.append_assoc
  rw [RecordKind.location, RecordKind.file_eq, locate_join, hpath, segments_append_separator,
    walk_append, segments_eq_singleton hname]
  exact ⟨_, enter_of_named (kind.named last) _⟩

/-- The file of an identifier lies in the directory of its kind and is the file of no other
identifier that is a plain name, exactly when the identifier is a plain name itself. -/
theorem file_contained_iff (id : String) :
    (DirectlyIn (kind.home cwd paths) (kind.location cwd paths id) ∧
      ∀ other : String, '/' ∉ other.toList →
        kind.location cwd paths other = kind.location cwd paths id → other = id) ↔
    '/' ∉ id.toList := by
  constructor
  · rintro ⟨⟨name, hname⟩, honly⟩ hslash
    obtain ⟨leading, last, rfl, hlast⟩ := exists_last_segment hslash
    obtain ⟨here, hhere⟩ := location_of_slash cwd paths kind leading last hlast
    -- where the rest leads is the directory, so the file is the one of the last part
    rw [hhere] at hname
    obtain ⟨hdir, -⟩ := List.append_inj' hname rfl
    have hsame : kind.location cwd paths last =
        kind.location cwd paths (leading ++ "/" ++ last) := by
      rw [hhere, location_of_plain cwd paths kind hlast, hdir]
    have heq := honly last hlast hsame
    rw [← heq] at hslash
    exact hlast hslash
  · intro hplain
    rw [location_of_plain cwd paths kind hplain]
    refine ⟨⟨_, rfl⟩, fun other hother hsame => ?_⟩
    rw [location_of_plain cwd paths kind hother] at hsame
    have hnames := (List.append_inj' hsame rfl).2
    exact (String.append_left_inj _).mp (List.singleton_inj.mp hnames)

end Locations

/-- A thread identifier that names the memory file. -/
theorem thread_file_escapes :
    ¬ ∀ (cwd : Location) (paths : StoragePaths) (kind : RecordKind),
      (∀ id, DirectlyIn (kind.home cwd paths) (kind.location cwd paths id)) ∧
      ∀ id other, kind.location cwd paths id = kind.location cwd paths other → id = other := by
  intro h
  obtain ⟨name, hname⟩ := (h ["srv"] ⟨".liz"⟩ .thread).1 "../global_memory"
  have hlocation : RecordKind.location ["srv"] ⟨".liz"⟩ .thread "../global_memory" =
      locate ["srv"] (StoragePaths.globalMemoryFile ⟨".liz"⟩) := by decide +kernel
  have hlength := congrArg List.length hname
  rw [hlocation, List.length_append, List.length_singleton] at hlength
  exact absurd hlength (by decide +kernel)

end Liz
