/-
The key column of a table. A table keeps the name of the first column that is declared
as key and looks the column up by it, so it finds one if and only if one is declared,
and finds that one unless a column in front of it has the same name
(`primaryKeyColumn?_of_table`). Quoted names are read up to their first blank, so two
columns can have one name without a repetition in the definition
(`primaryKeyColumn?_of_quoted_names`).
-/
import ReleaseSchema.Proofs.Ddl.HeadComment

namespace ReleaseSchema

namespace Table

/-- No column in front of the first one declared as key has the name of that one. -/
def KeepsKeyName (t : Table) : Prop :=
  ∀ key, t.columns.find? (·.isPrimaryKey) = some key →
    ∀ c ∈ t.columns.takeWhile (!·.isPrimaryKey), c.name ≠ key.name

/-- A table whose key is the name of the first column declared as key. -/
def KeyIsDeclared (t : Table) : Prop :=
  t.primaryKey = (t.columns.find? (·.isPrimaryKey)).map (·.name)

section Key

variable {t : Table} {key : Column}

/-- The columns of a table around the first one declared as key. -/
theorem exists_behind_key (h : t.columns.find? (·.isPrimaryKey) = some key) :
    key.isPrimaryKey = true ∧
      ∃ behind, t.columns = t.columns.takeWhile (!·.isPrimaryKey) ++ key :: behind := by
  refine ⟨List.find?_some h, ?_⟩
  rw [List.find?_eq_head?_dropWhile_not, List.head?_eq_some_iff] at h
  obtain ⟨behind, hbehind⟩ := h
  exact ⟨behind, by rw [← hbehind, List.takeWhile_append_dropWhile]⟩

/-- The column of the key is the first one with the name of the first one declared as key. -/
theorem KeyIsDeclared.primaryKeyColumn?_eq (h : t.KeyIsDeclared) :
    t.primaryKeyColumn? = (t.columns.find? (·.isPrimaryKey)).bind fun key =>
      t.columns.find? (·.name == key.name) := by
  rw [primaryKeyColumn?, h]
  cases t.columns.find? (·.isPrimaryKey) <;> rfl

theorem KeyIsDeclared.primaryKeyColumn?_eq_none_iff (h : t.KeyIsDeclared) :
    t.primaryKeyColumn? = none ↔ ∀ c ∈ t.columns, c.isPrimaryKey = false := by
  have declared : t.primaryKeyColumn? = none ↔ t.columns.find? (·.isPrimaryKey) = none := by
    rw [h.primaryKeyColumn?_eq]
    cases hkey : t.columns.find? (·.isPrimaryKey) with
    | none => simp
    | some key =>
      -- the column declared as key has its own name, so the look-up does not fail
      refine iff_of_false (fun hnone => ?_) (Option.some_ne_none key)
      rw [Option.bind_some, List.find?_eq_none] at hnone
      exact hnone key (List.mem_of_find?_eq_some hkey) (beq_self_eq_true _)
  rw [declared, List.find?_eq_none]
  simp

theorem KeyIsDeclared.primaryKeyColumn?_eq_iff (h : t.KeyIsDeclared) :
    t.primaryKeyColumn? = t.columns.find? (·.isPrimaryKey) ↔ t.KeepsKeyName := by
  rw [h.primaryKeyColumn?_eq, KeepsKeyName]
  cases hkey : t.columns.find? (·.isPrimaryKey) with
  | none => simp
  | some key =>
    obtain ⟨declared, behind, hcolumns⟩ := exists_behind_key hkey
    simp only [Option.bind_some, Option.some.injEq, forall_eq']
    constructor
    · intro found c hc same
      -- the look-up ends at a column in front of the key, which is not declared as key
      have here : ((t.columns.takeWhile (!·.isPrimaryKey)).find? (·.name == key.name)).isSome :=
        List.find?_isSome.2 ⟨c, hc, beq_iff_eq.2 same⟩
      obtain ⟨first, hfirst⟩ := Option.isSome_iff_exists.1 here
      rw [hcolumns, List.find?_append, hfirst, Option.some_or, Option.some.injEq] at found
      have undeclared := List.mem_takeWhile_imp (List.mem_of_find?_eq_some hfirst)
      rw [found, declared] at undeclared
      cases undeclared
    · intro others
      have none : (t.columns.takeWhile (!·.isPrimaryKey)).find? (·.name == key.name) = none := by
        rw [List.find?_eq_none]
        exact fun c hc same => others c hc (beq_iff_eq.1 same)
      rw [hcolumns, List.find?_append, none, Option.none_or, List.find?_cons_of_pos (by simp)]

theorem keepsKeyName_of_nodup (h : (t.columns.map (·.name)).Nodup) : t.KeepsKeyName := by
  intro key hkey c hc same
  obtain ⟨-, behind, hcolumns⟩ := exists_behind_key hkey
  rw [hcolumns, List.map_append, List.map_cons, List.nodup_append] at h
  exact h.2.2 _ (List.mem_map_of_mem hc) _ List.mem_cons_self same

end Key

end Table

namespace Ddl

/-- **The key column of a table.** Of any definition, a table has a key column if and only if a column
is declared as key. It is the first such column if and only if no column in front of that one is read
with its name, as is the case when no two columns are. -/
theorem primaryKeyColumn?_of_table (history : History) (sql : List Char) :
    let t := table history sql
    (t.primaryKeyColumn? = none ↔ ∀ c ∈ t.columns, c.isPrimaryKey = false) ∧
      (t.primaryKeyColumn? = t.columns.find? (·.isPrimaryKey) ↔ t.KeepsKeyName) ∧
      ((t.columns.map (·.name)).Nodup → t.primaryKeyColumn? = t.columns.find? (·.isPrimaryKey)) := by
  intro t
  have key : t.KeyIsDeclared := primaryKey_of_columns history sql
  exact ⟨key.primaryKeyColumn?_eq_none_iff, key.primaryKeyColumn?_eq_iff,
    fun distinct => key.primaryKeyColumn?_eq_iff.2 (Table.keepsKeyName_of_nodup distinct)⟩

/-- Two columns declared as key, behind one that is not. -/
def accountDefinition : List Char :=
  "create table abct_account_acc (acc_name text, \"acc_id\" int primary key, acc_old int primary key);".toList

theorem primaryKeyColumn?_of_table_account :
    let t := table { name := "abct_account_acc" } accountDefinition
    (t.columns.map (·.name)).Nodup ∧ t.primaryKeyColumn? = t.columns.find? (·.isPrimaryKey) ∧
      t.primaryKeyColumn?.map (·.name) = some "acc_id" := by
  intro t
  have distinct : (t.columns.map (·.name)).Nodup := by decide +kernel
  have first : (t.columns.find? (·.isPrimaryKey)).map (·.name) = some "acc_id" := by decide +kernel
  have found : t.primaryKeyColumn? = t.columns.find? (·.isPrimaryKey) :=
    (primaryKeyColumn?_of_table { name := "abct_account_acc" } accountDefinition).2.2 distinct
  exact ⟨distinct, found, by rw [found, first]⟩

/-- Two quoted names with one first word. -/
theorem primaryKeyColumn?_of_quoted_names :
    let t := table { name := "abct_user_usr" }
      "create table abct_user_usr (\"user id\" int, \"user key\" int primary key);".toList
    t.columns.map (fun c => (c.name, c.type, c.isPrimaryKey)) =
        [("\"user", "id\" int", false), ("\"user", "key\" int", true)] ∧
      t.primaryKeyColumn?.map (fun c => (c.type, c.isPrimaryKey)) = some ("id\" int", false) ∧
      (t.columns.find? (·.isPrimaryKey)).map (·.type) = some "key\" int" := by
  decide +kernel

end Ddl

end ReleaseSchema
