import GpuListing.Config
import GpuListing.Proofs.Library.Results
import GpuListing.Table

/-! # A document over the defaults

A document has no key twice, so it has one value at most for each field of a configuration. The configuration in a
document has these values in the fields that the document sets, and the defaults in the others. -/

namespace GpuListing

/-! ### Fields of configurations -/

namespace Config

theorem put_eq_ok {α : Type} {found : Except ValueError α} {put : α → Config} {next : Config}
    (h : (do return put (← found.mapError .badValue)) = (.ok next : Except FieldError Config)) :
    ∃ a, found = .ok a ∧ put a = next := by
  obtain ⟨a, hfound, hput⟩ := bind_eq_ok h
  exact ⟨a, mapError_eq_ok hfound, Except.ok.inj hput⟩

/-- A key sets its own field to the value, and keeps the others. -/
theorem get_set {c next : Config} {key : String} {value : Shape} (h : c.set key value = .ok next) :
    (if key = "family" then value.toFamily = .ok next.family else next.family = c.family) ∧
    (if key = "triple" then value.toText = .ok next.triple else next.triple = c.triple) ∧
    (if key = "cpu" then value.toText = .ok next.cpu else next.cpu = c.cpu) ∧
    (if key = "skip_kernel_header" then value.toBoolean = .ok next.skipHeader else next.skipHeader = c.skipHeader) := by
  rw [set] at h
  split at h
  · next hkey =>
    obtain ⟨family, hread, rfl⟩ := put_eq_ok h
    simp [hkey, hread]
  split at h
  · next hkey =>
    obtain ⟨triple, hread, rfl⟩ := put_eq_ok h
    simp [hkey, hread]
  split at h
  · next hkey =>
    obtain ⟨cpu, hread, rfl⟩ := put_eq_ok h
    simp [hkey, hread]
  split at h
  · next hkey =>
    obtain ⟨skip, hread, rfl⟩ := put_eq_ok h
    simp [hkey, hread]
  · cases h

/-- A field of a configuration: its key, the values that it takes, and that nothing but its key sets it. -/
structure Field (α : Type) where
  key : String
  read : Shape → Except ValueError α
  get : Config → α
  get_set : ∀ {c next : Config} {other : String} {value : Shape}, c.set other value = .ok next →
    if other = key then read value = .ok (get next) else get next = get c

namespace Field

def family : Field Family := ⟨"family", Shape.toFamily, Config.family, fun h => (Config.get_set h).1⟩

def triple : Field String := ⟨"triple", Shape.toText, Config.triple, fun h => (Config.get_set h).2.1⟩

def cpu : Field String := ⟨"cpu", Shape.toText, Config.cpu, fun h => (Config.get_set h).2.2.1⟩

def skipHeader : Field Bool :=
  ⟨"skip_kernel_header", Shape.toBoolean, Config.skipHeader, fun h => (Config.get_set h).2.2.2⟩

variable {α : Type} (field : Field α)

/-- The field is the value that is given, or the one of another configuration if none is given. -/
def From (given : Option Shape) (base c : Config) : Prop :=
  match given with
  | none => field.get c = field.get base
  | some value => field.read value = .ok (field.get c)

/-- The value of the field in a document. -/
def inDocument (fields : Toml.Fields) : Option Shape := (Table.lookup field.key fields).map Toml.Node.shape

variable {field}

/-- A value that is given over another one hides it. -/
theorem From.over {upper lower : Option Shape} {base between c : Config} (h : field.From upper between c)
    (hlower : field.From lower base between) : field.From (upper.or lower) base c := by
  cases upper with
  | some value => exact h
  | none =>
    have hget : field.get c = field.get between := h
    cases lower with
    | some value => exact hlower.trans (congrArg Except.ok hget.symm)
    | none => exact hget.trans hlower

theorem inDocument_cons_self (node : Toml.Node) (rest : Toml.Fields) :
    field.inDocument ((field.key, node) :: rest) = some node.shape := by
  rw [inDocument, Table.lookup, if_pos rfl, Option.map_some]

theorem inDocument_cons_of_ne {key : String} (node : Toml.Node) (rest : Toml.Fields) (h : key ≠ field.key) :
    field.inDocument ((key, node) :: rest) = field.inDocument rest := by
  rw [inDocument, Table.lookup, if_neg h, inDocument]

theorem inDocument_eq_none {fields : Toml.Fields} (h : field.key ∉ fields.map Prod.fst) :
    field.inDocument fields = none := by
  rw [inDocument, Option.map_eq_none_iff, ← Option.not_isSome_iff_eq_none, Table.lookup_isSome]
  exact h

theorem inDocument_of_perm {fields others : Toml.Fields} (hdistinct : Toml.Distinct fields) (h : fields.Perm others) :
    field.inDocument fields = field.inDocument others := by
  have hothers : Toml.Distinct others := (h.map Prod.fst).nodup_iff.1 hdistinct
  have hget : Table.get? ⟨fields, hdistinct⟩ field.key = Table.get? ⟨others, hothers⟩ field.key :=
    Table.get?_of_perm h field.key
  exact congrArg (Option.map Toml.Node.shape) hget

/-- Setting the fields of a document one after another. -/
theorem from_foldlM {fields : Toml.Fields} {c next : Config} (hdistinct : Toml.Distinct fields)
    (h : fields.foldlM (fun c entry => c.set entry.1 entry.2.shape) c = .ok next) :
    field.From (field.inDocument fields) c next := by
  induction fields generalizing c with
  | nil =>
    cases h
    exact (rfl : field.get _ = _)
  | cons entry rest ih =>
    obtain ⟨key, node⟩ := entry
    obtain ⟨hnew, hrest⟩ := List.nodup_cons.1 hdistinct
    rw [List.foldlM_cons] at h
    obtain ⟨between, hbetween, h⟩ := bind_eq_ok h
    have hfield := field.get_set hbetween
    have ih := ih hrest h
    by_cases hkey : key = field.key
    · subst hkey
      have hset : field.From (some node.shape) c between := (if_pos rfl).mp hfield
      rw [inDocument_eq_none hnew] at ih
      rw [inDocument_cons_self]
      exact ih.over hset
    · have hkept : field.From none c between := (if_neg hkey).mp hfield
      rw [inDocument_cons_of_ne node rest hkey, ← Option.or_none (o := field.inDocument rest)]
      exact ih.over hkept

end Field

/-- A document has its values in the fields that it sets, over the defaults. -/
theorem from_ofFields {fields : Toml.Fields} {c : Config} (hdistinct : Toml.Distinct fields)
    (h : ofFields fields = .ok c) {α : Type} (field : Field α) : field.From (field.inDocument fields) default c :=
  field.from_foldlM hdistinct h

end Config

end GpuListing
