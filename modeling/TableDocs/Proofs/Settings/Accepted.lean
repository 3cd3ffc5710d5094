import TableDocs.Proofs.Settings.Extensions

/-!
# TableDocs — settings that are read again

Settings are written out and read again, over and over, on the way to a run. What has been accepted
once is read as itself, and members that are given behind it replace just what they name.

* **`Extract.Reads`**, **`Logging.Reads`** — what members say over settings that there are.
* **`Extract.Reads.append_iff`** — two layers of members are read one over the other.
* **`Accepted`** — what the checks of all settings come to.
* **`ofValue_members`** — accepted settings are read as themselves.
-/

namespace TableDocs.Settings

open TableDocs.Data
open TableDocs.Validation

/-! ## Single settings

Each check is tied to what it accepts: a name of a choice, a number between two bounds. The value
that was accepted is then written in the form that the check accepts. -/

/-- A choice is read from its own name. -/
theorem asNamed_name {α : Type} {ofName? : String → Option α} (refusal : String → String)
    (n : Named ofName?) : asNamed ofName? refusal (.text n.name) = .valid n := by
  obtain ⟨name, choice, hchoice⟩ := n
  simp only [asNamed, asText, Checked.bind]
  split
  · next choice' h =>
    obtain rfl := Option.some.inj (h.symm.trans hchoice)
    rfl
  · next h => exact absurd (h.symm.trans hchoice) (by simp)

/-- A number is accepted as it is, if it lies between the bounds. -/
theorem asIntBetween_eq_valid_iff {least most n : Int} {v : Value} :
    asIntBetween least most v = .valid n ↔ asInt v = .valid n ∧ least ≤ n ∧ n ≤ most := by
  -- the bounds are checked one after the other, and the first problem ends the check
  rw [asIntBetween, Checked.bind_eq_valid_iff]
  constructor
  · rintro ⟨m, hm, h⟩
    split at h
    · exact absurd h Checked.fail_ne_valid
    · split at h
      · exact absurd h Checked.fail_ne_valid
      · obtain rfl := Checked.valid.inj h
        exact ⟨hm, by omega, by omega⟩
  · rintro ⟨hn, hleast, hmost⟩
    exact ⟨n, hn, by rw [if_neg (by omega), if_neg (by omega)]⟩

/-- The same of a number that is kept without a sign. -/
theorem asNatBetween_eq_valid_iff {least most n : Nat} {v : Value} :
    asNatBetween least most v = .valid n ↔ asInt v = .valid (n : Int) ∧ least ≤ n ∧ n ≤ most := by
  rw [asNatBetween, Checked.map_eq_valid_iff]
  simp only [asIntBetween_eq_valid_iff]
  constructor
  · rintro ⟨m, ⟨hm, hleast, hmost⟩, rfl⟩
    have htoNat : (m.toNat : Int) = m := Int.toNat_of_nonneg (by omega)
    exact ⟨htoNat ▸ hm, by omega, by omega⟩
  · rintro ⟨hn, hleast, hmost⟩
    exact ⟨n, ⟨hn, by omega, by omega⟩, Int.toNat_natCast n⟩

theorem asNatBetween_int {least most n : Nat} (hleast : least ≤ n) (hmost : n ≤ most) :
    asNatBetween least most (.int n) = .valid n :=
  asNatBetween_eq_valid_iff.mpr ⟨rfl, hleast, hmost⟩

theorem asLevel_name (level : Log.Level) : asLevel (.text level.name) = .valid level := by
  cases level <;> rfl

theorem asLocale_name (locale : Markdown.Locale) :
    asLocale (.text locale.name) = .valid locale := by
  cases locale <;> rfl

/-! ## Settings for extraction

The members are read one by one, each from the list of all members, over the value that there is
already. So what a list of members says is five independent statements. -/

namespace Extract

variable {base s s' : Extract} {members more : List (String × Value)}

/-- What members say over settings that there are; what no member names is kept. -/
structure Reads (base : Extract) (members : List (String × Value)) (s : Extract) : Prop where
  extensions : optional members ["extensions"] base.extensions asExtensions = .valid s.extensions
  encoding : optional members ["encoding"] base.encoding
    (asNamed Files.Encoding.ofName? encodingRefusal) = .valid s.encoding
  recursive : optional members ["recursive"] base.recursive asBool = .valid s.recursive
  workers : optional members ["workers"] base.workers (asNatBetween 1 mostWorkers) =
    .valid s.workers
  dialect : optional members ["dialect"] base.dialect
    (asNamed Sql.Dialect.ofName? dialectRefusal) = .valid s.dialect

theorem ofMembers_eq_valid_iff : ofMembers members = .valid s ↔ Reads {} members s := by
  simp only [ofMembers, Checked.andThen_eq_valid_iff, Checked.map_eq_valid_iff]
  constructor
  · rintro ⟨_, ⟨_, ⟨_, ⟨_, ⟨_, hextensions, rfl⟩, _, hencoding, rfl⟩, _, hrecursive, rfl⟩, _,
      hworkers, rfl⟩, _, hdialect, rfl⟩
    exact ⟨hextensions, hencoding, hrecursive, hworkers, hdialect⟩
  · rintro ⟨hextensions, hencoding, hrecursive, hworkers, hdialect⟩
    exact ⟨_, ⟨_, ⟨_, ⟨_, ⟨_, hextensions, rfl⟩, _, hencoding, rfl⟩, _, hrecursive, rfl⟩, _,
      hworkers, rfl⟩, _, hdialect, rfl⟩

/-- **Two layers of members** are read one over the other. -/
theorem Reads.append_iff (h : Reads base members s) :
    Reads base (members ++ more) s' ↔ Reads s more s' := by
  have hextensions := optional_append h.extensions more
  have hencoding := optional_append h.encoding more
  have hrecursive := optional_append h.recursive more
  have hworkers := optional_append h.workers more
  have hdialect := optional_append h.dialect more
  constructor
  · intro hboth
    exact ⟨hextensions ▸ hboth.extensions, hencoding ▸ hboth.encoding,
      hrecursive ▸ hboth.recursive, hworkers ▸ hboth.workers, hdialect ▸ hboth.dialect⟩
  · intro hmore
    exact ⟨hextensions.trans hmore.extensions, hencoding.trans hmore.encoding,
      hrecursive.trans hmore.recursive, hworkers.trans hmore.workers,
      hdialect.trans hmore.dialect⟩

/-- What the checks of the settings for extraction come to. -/
structure Accepted (s : Extract) : Prop where
  extensions_ne_nil : s.extensions ≠ []
  isExtension : ∀ e ∈ s.extensions, IsExtension e
  one_le_workers : 1 ≤ s.workers
  workers_le : s.workers ≤ mostWorkers

/-- The usual settings pass the checks that given ones have to pass. -/
theorem accepted_default : ({} : Extract).Accepted where
  extensions_ne_nil := List.cons_ne_nil _ _
  isExtension := List.forall_mem_singleton.mpr
    ⟨by decide +kernel, by decide +kernel, by decide +kernel⟩
  one_le_workers := by decide
  workers_le := by decide

/-- What was read passes the checks, since whatever is not given was there before. -/
theorem Reads.accepted (h : Reads base members s) (hbase : base.Accepted) : s.Accepted := by
  have hextensions : s.extensions ≠ [] ∧ ∀ e ∈ s.extensions, IsExtension e := by
    obtain ⟨v, -, hv⟩ | ⟨-, hkept⟩ := optional_eq_valid_iff.mp h.extensions
    · obtain ⟨-, -, -, hne⟩ := asExtensions_eq_valid_iff.mp hv
      exact ⟨hne, fun _ => isExtension_of_asExtensions hv⟩
    · rw [hkept]
      exact ⟨hbase.extensions_ne_nil, hbase.isExtension⟩
  have hworkers : 1 ≤ s.workers ∧ s.workers ≤ mostWorkers := by
    obtain ⟨v, -, hv⟩ | ⟨-, hkept⟩ := optional_eq_valid_iff.mp h.workers
    · exact (asNatBetween_eq_valid_iff.mp hv).2
    · rw [hkept]
      exact ⟨hbase.one_le_workers, hbase.workers_le⟩
  exact ⟨hextensions.1, hextensions.2, hworkers.1, hworkers.2⟩

/-- **Accepted settings for extraction are read as themselves**, over whatever there is. -/
theorem Accepted.reads_members (h : s.Accepted) (base : Extract) : Reads base s.members s where
  extensions := optional_of_member? rfl (asExtensions_of_forall h.extensions_ne_nil h.isExtension)
  encoding := optional_of_member? rfl (asNamed_name _ s.encoding)
  recursive := optional_of_member? rfl rfl
  workers := optional_of_member? rfl (asNatBetween_int h.one_le_workers h.workers_le)
  dialect := optional_of_member? rfl (asNamed_name _ s.dialect)

/-- Members behind others that name the workers or the dialect replace these and nothing else. -/
theorem reads_iff_overlaid (hextensions : Value.member? members "extensions" = none)
    (hencoding : Value.member? members "encoding" = none)
    (hrecursive : Value.member? members "recursive" = none) :
    Reads base members s ↔ ∃ workers dialect,
      Overlaid (asNatBetween 1 mostWorkers) base.workers (Value.member? members "workers") workers ∧
      Overlaid (asNamed Sql.Dialect.ofName? dialectRefusal) base.dialect
        (Value.member? members "dialect") dialect ∧
      s = { base with workers := workers, dialect := dialect } := by
  simp only [← optional_eq_valid_iff_overlaid]
  constructor
  · rintro ⟨hextensions', hencoding', hrecursive', hworkers, hdialect⟩
    -- what is not given stays as it was
    rw [optional_eq, hextensions] at hextensions'
    rw [optional_eq, hencoding] at hencoding'
    rw [optional_eq, hrecursive] at hrecursive'
    refine ⟨s.workers, s.dialect, hworkers, hdialect, ?_⟩
    rw [Checked.valid.inj hextensions', Checked.valid.inj hencoding', Checked.valid.inj hrecursive']
  · rintro ⟨workers, dialect, hworkers, hdialect, rfl⟩
    exact ⟨by rw [optional_eq, hextensions], by rw [optional_eq, hencoding],
      by rw [optional_eq, hrecursive], hworkers, hdialect⟩

/-- With no dialect given, only the workers can change. -/
theorem reads_iff_overlaid_workers (hextensions : Value.member? members "extensions" = none)
    (hencoding : Value.member? members "encoding" = none)
    (hrecursive : Value.member? members "recursive" = none)
    (hdialect : Value.member? members "dialect" = none) :
    Reads base members s ↔ ∃ workers,
      Overlaid (asNatBetween 1 mostWorkers) base.workers (Value.member? members "workers") workers ∧
      s = { base with workers := workers } := by
  rw [reads_iff_overlaid hextensions hencoding hrecursive, hdialect]
  simp only [overlaid_none_iff, exists_and_left, exists_eq_left]

end Extract

/-! ## The other groups

Logging has the same two facts. Output and rendering have one setting each, so they are read in one
step. -/

namespace Logging

variable {base s s' : Logging} {members more : List (String × Value)}

/-- What members say over settings that there are; what no member names is kept. -/
structure Reads (base : Logging) (members : List (String × Value)) (s : Logging) : Prop where
  level : optional members ["level"] base.level asLevel = .valid s.level
  layout : optional members ["format"] base.layout asText = .valid s.layout

theorem ofMembers_eq_valid_iff : ofMembers members = .valid s ↔ Reads {} members s := by
  simp only [ofMembers, Checked.andThen_eq_valid_iff, Checked.map_eq_valid_iff]
  constructor
  · rintro ⟨_, ⟨_, hlevel, rfl⟩, _, hlayout, rfl⟩
    exact ⟨hlevel, hlayout⟩
  · rintro ⟨hlevel, hlayout⟩
    exact ⟨_, ⟨_, hlevel, rfl⟩, _, hlayout, rfl⟩

theorem Reads.append_iff (h : Reads base members s) :
    Reads base (members ++ more) s' ↔ Reads s more s' := by
  have hlevel := optional_append h.level more
  have hlayout := optional_append h.layout more
  constructor
  · intro hboth
    exact ⟨hlevel ▸ hboth.level, hlayout ▸ hboth.layout⟩
  · intro hmore
    exact ⟨hlevel.trans hmore.level, hlayout.trans hmore.layout⟩

theorem reads_members (s base : Logging) : Reads base s.members s where
  level := optional_of_member? rfl (asLevel_name s.level)
  layout := optional_of_member? rfl rfl

theorem reads_iff_overlaid (hlayout : Value.member? members "format" = none) :
    Reads base members s ↔ ∃ level,
      Overlaid asLevel base.level (Value.member? members "level") level ∧
      s = { base with level := level } := by
  simp only [← optional_eq_valid_iff_overlaid]
  constructor
  · rintro ⟨hlevel, hlayout'⟩
    rw [optional_eq, hlayout] at hlayout'
    refine ⟨s.level, hlevel, ?_⟩
    rw [Checked.valid.inj hlayout']
  · rintro ⟨level, hlevel, rfl⟩
    exact ⟨hlevel, by rw [optional_eq, hlayout]⟩

end Logging

/-- Whatever the members say, the document is not indented wider than allowed. -/
theorem Output.indent_le_of_ofMembers {members : List (String × Value)} {s : Output}
    (h : ofMembers members = .valid s) : s.indent ≤ widestIndent := by
  rw [ofMembers, Checked.map_eq_valid_iff] at h
  obtain ⟨indent, hindent, rfl⟩ := h
  obtain ⟨v, -, hv⟩ | ⟨-, rfl⟩ := optional_eq_valid_iff.mp hindent
  · exact (asNatBetween_eq_valid_iff.mp hv).2.2
  -- the usual indentation
  · show 2 ≤ widestIndent
    decide

/-- An accepted indentation is read as itself. -/
theorem Output.ofMembers_members {s : Output} (h : s.indent ≤ widestIndent) :
    ofMembers s.members = .valid s :=
  Checked.map_eq_valid_iff.mpr
    ⟨s.indent, optional_of_member? rfl (asNatBetween_int (Nat.zero_le _) h), rfl⟩

theorem Render.ofMembers_members (s : Render) : ofMembers s.members = .valid s :=
  Checked.map_eq_valid_iff.mpr ⟨s.locale, optional_of_member? rfl (asLocale_name s.locale), rfl⟩

/-! ## All settings

A group is an object in the object of all settings. One that is not given has its usual settings,
and members of no group are passed over. -/

variable {s : Settings} {members : List (String × Value)} {v : Value}

/-- The settings of a group. -/
def group {α : Type} (members : List (String × Value)) (key model : String) (usual : α)
    (check : List (String × Value) → Checked α) : Checked α :=
  optional members [key] usual (asObject .program model check)

/-- A group is given and passes its check, or is not given. -/
theorem group_eq_valid_iff {α : Type} {key model : String} {usual a : α}
    {check : List (String × Value) → Checked α} :
    group members key model usual check = .valid a ↔
      (∃ inner, Value.member? members key = some (.object inner) ∧ check inner = .valid a) ∨
        Value.member? members key = none ∧ a = usual := by
  rw [group, optional_eq_valid_iff]
  simp only [asObject_eq_valid_iff]
  refine or_congr_left ⟨?_, ?_⟩
  · rintro ⟨_, hv, inner, rfl, hinner⟩
    exact ⟨inner, hv, hinner⟩
  · rintro ⟨inner, hv, hinner⟩
    exact ⟨_, hv, inner, rfl, hinner⟩

theorem group_of_member? {α : Type} {key model : String} {usual a : α}
    {check : List (String × Value) → Checked α} {inner : List (String × Value)}
    (h : Value.member? members key = some (.object inner)) :
    group members key model usual check = .valid a ↔ check inner = .valid a := by
  rw [group_eq_valid_iff, h]
  simp

/-- The groups of settings are read one by one. -/
theorem ofMembers_eq_valid_iff : ofMembers members = .valid s ↔
    group members "extract" Extract.modelName {} Extract.ofMembers = .valid s.extract ∧
    group members "output" Output.modelName {} Output.ofMembers = .valid s.output ∧
    group members "render" Render.modelName {} Render.ofMembers = .valid s.render ∧
    group members "logging" Logging.modelName {} Logging.ofMembers = .valid s.logging := by
  simp only [ofMembers, Checked.andThen_eq_valid_iff, Checked.map_eq_valid_iff]
  constructor
  · rintro ⟨_, ⟨_, ⟨_, ⟨_, hextract, rfl⟩, _, houtput, rfl⟩, _, hrender, rfl⟩, _, hlogging, rfl⟩
    exact ⟨hextract, houtput, hrender, hlogging⟩
  · rintro ⟨hextract, houtput, hrender, hlogging⟩
    exact ⟨_, ⟨_, ⟨_, ⟨_, hextract, rfl⟩, _, houtput, rfl⟩, _, hrender, rfl⟩, _, hlogging, rfl⟩

/-- What the checks of all settings come to. -/
structure Accepted (s : Settings) : Prop where
  extract : s.extract.Accepted
  indent_le : s.output.indent ≤ widestIndent

/-- Settings that were read are accepted. -/
theorem accepted_of_ofMembers (h : ofMembers members = .valid s) : s.Accepted := by
  obtain ⟨hextract, houtput, -, -⟩ := ofMembers_eq_valid_iff.mp h
  constructor
  · obtain ⟨inner, -, hinner⟩ | ⟨-, husual⟩ := group_eq_valid_iff.mp hextract
    · exact (Extract.ofMembers_eq_valid_iff.mp hinner).accepted Extract.accepted_default
    · rw [husual]
      exact Extract.accepted_default
  · obtain ⟨inner, -, hinner⟩ | ⟨-, husual⟩ := group_eq_valid_iff.mp houtput
    · exact Output.indent_le_of_ofMembers hinner
    · rw [husual]
      decide

/-- And accepted settings are read as themselves, group by group. -/
theorem Accepted.ofMembers_members (h : s.Accepted) : ofMembers s.members = .valid s := by
  refine ofMembers_eq_valid_iff.mpr ⟨?_, ?_, ?_, ?_⟩ <;> refine (group_of_member? rfl).mpr ?_
  · exact Extract.ofMembers_eq_valid_iff.mpr (h.extract.reads_members _)
  · exact Output.ofMembers_members h.indent_le
  · exact Render.ofMembers_members s.render
  · exact Logging.ofMembers_eq_valid_iff.mpr (s.logging.reads_members _)

/-- **Accepted settings are read as themselves.** -/
theorem ofValue_members (h : ofValue v = .valid s) : ofValue (.object s.members) = .valid s := by
  obtain ⟨members, rfl, hmembers⟩ := asObject_eq_valid_iff.mp h
  exact (accepted_of_ofMembers hmembers).ofMembers_members

end TableDocs.Settings
