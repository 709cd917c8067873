import SyslogIntake.Proofs.Json.Tidy
import SyslogIntake.Settings.Loading

/-!
# What is put where

A tree of settings is known by the values at the end of paths of names.  Putting a value at such
a path sets what is found there and leaves every other path alone that does not run through it,
whatever there was before.  What a file holds under names in lower case is put into the empty
tree as it stands.

**Results.**

* `put_members` : a value that is no object is found where it is put, everything else where it
  was;
* `mergeMembers_value` : members in lower case are merged into what comes before them as they
  are;
* `ontoTree_value` : the tree of a file with such names is what the file holds.
-/

namespace SyslogIntake

namespace Json

/-- The value at the end of a path of names. -/
def at? : List String → Json → Option Json
  | [], v => some v
  | name :: rest, v => (v.get? name).bind (at? rest)

mutual

/-- A value of which all names are in lower case. -/
def Folded : Json → Prop
  | .object members => FoldedMembers members
  | .null | .bool _ | .whole _ | .real _ | .string _ | .array _ => True

/-- Members with names in lower case, at every depth. -/
def FoldedMembers : List (String × Json) → Prop
  | [] => True
  | (name, value) :: rest => Text.folded name = name ∧ Folded value ∧ FoldedMembers rest

end

theorem foldedMembers_iff
    {members : List (String × Json)} :
    FoldedMembers members ↔ ∀ m ∈ members, Text.folded m.1 = m.1 ∧ m.2.Folded := by
  induction members with
  | nil =>
      simp [FoldedMembers]
  | cons head rest ih =>
      simp [FoldedMembers, ih, and_assoc]

end Json

namespace Sourced

open Json

/-! Trees and their values. -/

theorem valueMembers_insert
    (name : String) (part : Sourced) (members : List (String × Sourced)) :
    valueMembers (insert name part members) = insert name part.value (valueMembers members) := by
  induction members with
  | nil =>
      rfl
  | cons head rest ih =>
      obtain ⟨other, held⟩ := head
      simp only [Json.insert, valueMembers]
      split
      · rfl
      · split
        · rfl
        · rw [valueMembers, ih]

theorem valueMembers_append
    (front back : List (String × Sourced)) :
    valueMembers (front ++ back) = valueMembers front ++ valueMembers back := by
  induction front with
  | nil =>
      rfl
  | cons head rest ih =>
      obtain ⟨name, part⟩ := head
      rw [List.cons_append, valueMembers, valueMembers, ih, List.cons_append]

theorem lookup_valueMembers
    (name : String) (members : List (String × Sourced)) :
    lookup name (valueMembers members) = (lookup name members).map value := by
  induction members with
  | nil =>
      rfl
  | cons head rest ih =>
      obtain ⟨other, part⟩ := head
      simp only [valueMembers, lookup]
      split
      · rfl
      · exact ih

theorem valueMembers_wholeMembers
    (origin : Option String) (members : List (String × Json)) :
    valueMembers (wholeMembers origin members) = members := by
  induction members with
  | nil =>
      rfl
  | cons head rest ih =>
      obtain ⟨name, v⟩ := head
      rw [wholeMembers] at ih ⊢
      rw [List.map_cons, valueMembers, value, ih]

/-- A table has the members of its value; what is no table has none. -/
theorem asTable_value
    (held : Option Sourced) :
    (∃ tree, held = some tree ∧ tree.value = .object (valueMembers (asTable held).2)) ∨
      (asTable held).2 = [] ∧ ∀ tree, held = some tree → ∀ name, tree.value.get? name = none := by
  match held with
  | none =>
      exact Or.inr ⟨rfl, fun tree htree => nomatch htree⟩
  | some (.table origin members) =>
      exact Or.inl ⟨_, rfl, by rw [value, asTable]⟩
  | some (.list origin items) =>
      refine Or.inr ⟨rfl, ?_⟩
      intro tree htree name
      cases htree
      rw [value]
      rfl
  | some (.whole origin v) =>
      cases v with
      | object members =>
          refine Or.inl ⟨_, rfl, ?_⟩
          rw [value, asTable, valueMembers_wholeMembers]
      | _ =>
          refine Or.inr ⟨rfl, ?_⟩
          intro tree htree name
          cases htree
          rw [value]
          rfl

theorem lookup_asTable
    (held : Option Sourced) (name : String) :
    (lookup name (asTable held).2).map value = held.bind fun tree => tree.value.get? name := by
  rcases asTable_value held with ⟨tree, rfl, hvalue⟩ | ⟨hnone, hall⟩
  · rw [Option.bind_some, hvalue, get?, lookup_valueMembers]
  · rw [hnone]
    cases held with
    | none =>
        rfl
    | some tree =>
        exact (hall tree rfl name).symm

theorem asTable_tidy
    {held : Option Sourced}
    (h : ∀ tree, held = some tree → tree.value.Tidy) :
    Ordered (valueMembers (asTable held).2) ∧ TidyMembers (valueMembers (asTable held).2) := by
  rcases asTable_value held with ⟨tree, htree, hvalue⟩ | ⟨hnone, -⟩
  · have htidy := h tree htree
    rw [hvalue] at htidy
    exact htidy
  · rw [hnone]
    exact ⟨ordered_nil, trivial⟩

/-! Putting one value. -/

section Put

variable {origin : Option String} {v : Json}

theorem put_nil
    (held : Option Sourced) :
    put origin v [] held = some (merge origin v held) := by
  rw [put]

theorem put_member
    (name : String) (rest : List KeyStep) (held : Option Sourced) :
    put origin v (.member name :: rest) held =
      (put origin v rest (lookup (Text.folded name) (asTable held).2)).map fun part =>
        .table (asTable held).1 (insert (Text.folded name) part (asTable held).2) := by
  rw [put]

theorem merge_of_no_object
    (hv : ∀ members, v ≠ .object members)
    (held : Option Sourced) :
    merge origin v held = .whole origin v := by
  cases v with
  | object members =>
      exact absurd rfl (hv members)
  | _ =>
      simp [merge]

/-- A part that is put into a tree changes the tree nowhere else. -/
theorem at?_table
    {name asked : String} {part : Sourced} {held : Option Sourced} {more : List String}
    (hmore : asked = name → part.value.at? more =
      (lookup name (asTable held).2).bind fun tree => tree.value.at? more) :
    (Sourced.table (asTable held).1 (insert name part (asTable held).2)).value.at? (asked :: more) =
      held.bind fun tree => tree.value.at? (asked :: more) := by
  have hmember := lookup_asTable held asked
  rw [value, valueMembers_insert, at?, get?]
  by_cases heq : asked = name
  · subst heq
    rw [lookup_insert_self, Option.bind_some, hmore rfl]
    cases held with
    | none =>
        rfl
    | some tree =>
        rw [Option.bind_some] at hmember ⊢
        rw [at?, ← hmember, Option.bind_map]
        rfl
  · rw [lookup_insert_of_ne heq, lookup_valueMembers, hmember]
    cases held with
    | none =>
        rfl
    | some tree =>
        rw [Option.bind_some, Option.bind_some, at?]

/--
A value that is no object, put at the end of a path of names in lower case, is found there; on
the way to it there are objects, and what is at the end of a path that neither runs through that
one nor ends on it stays.
-/
theorem put_members
    (hv : ∀ members, v ≠ .object members)
    {path : List String}
    (hpath : ∀ name ∈ path, Text.folded name = name)
    (held : Option Sourced) :
    ∃ tree, put origin v (path.map .member) held = some tree ∧ tree.value.at? path = some v ∧
      (∀ front, front <+: path → front ≠ path →
        ∃ members, tree.value.at? front = some (.object members)) ∧
      ∀ other, ¬ path <+: other → ¬ other <+: path →
        tree.value.at? other = held.bind fun tree => tree.value.at? other := by
  induction path generalizing held with
  | nil =>
      refine ⟨.whole origin v, ?_, ?_, ?_, ?_⟩
      · rw [List.map_nil, put_nil, merge_of_no_object hv]
      · rw [value, at?]
      · intro front hfront hne
        exact absurd (List.prefix_nil.1 hfront) hne
      · intro other hthrough _
        exact absurd List.nil_prefix hthrough
  | cons name rest ih =>
      have hname : Text.folded name = name := hpath name List.mem_cons_self
      obtain ⟨part, hput, hfound, hfronts, hothers⟩ :=
        ih (fun n hn => hpath n (List.mem_cons_of_mem _ hn)) (lookup name (asTable held).2)
      have hvalue : ∀ from?, (Sourced.table from? (insert name part (asTable held).2)).value =
          .object (insert name part.value (valueMembers (asTable held).2)) := by
        intro from?
        rw [value, valueMembers_insert]
      refine ⟨.table (asTable held).1 (insert name part (asTable held).2), ?_, ?_, ?_, ?_⟩
      · rw [List.map_cons, put_member, hname, hput, Option.map_some]
      · rw [hvalue, at?, get?, lookup_insert_self]
        exact hfound
      · intro front hfront hne
        rw [hvalue]
        cases front with
        | nil =>
            exact ⟨_, by rw [at?]⟩
        | cons first more =>
            obtain ⟨rfl, hmore⟩ := List.cons_prefix_cons.1 hfront
            rw [at?, get?, lookup_insert_self, Option.bind_some]
            exact hfronts more hmore fun heq => hne (congrArg _ heq)
      · intro other hthrough hends
        cases other with
        | nil =>
            exact absurd List.nil_prefix hends
        | cons asked more =>
            refine at?_table ?_
            rintro rfl
            exact hothers more (fun hp => hthrough (List.cons_prefix_cons.2 ⟨rfl, hp⟩))
              (fun hp => hends (List.cons_prefix_cons.2 ⟨rfl, hp⟩))

theorem put_tidy
    (hv : ∀ members, v ≠ .object members) (htidy : v.Tidy)
    {path : List String} {held : Option Sourced} {tree : Sourced}
    (hheld : ∀ tree, held = some tree → tree.value.Tidy)
    (hput : put origin v (path.map .member) held = some tree) :
    tree.value.Tidy := by
  induction path generalizing held tree with
  | nil =>
      rw [List.map_nil, put_nil, merge_of_no_object hv] at hput
      rw [← Option.some.inj hput, value]
      exact htidy
  | cons name rest ih =>
      rw [List.map_cons, put_member] at hput
      obtain ⟨part, hpart, rfl⟩ := Option.map_eq_some_iff.1 hput
      have hmember : part.value.Tidy := by
        refine ih ?_ hpart
        intro inner hinner
        have hget := lookup_asTable held (Text.folded name)
        rw [hinner] at hget
        cases held with
        | none =>
            cases hget
        | some outer =>
            exact (hheld outer rfl).get? hget.symm
      obtain ⟨hordered, hmembers⟩ := asTable_tidy hheld
      rw [value, valueMembers_insert]
      exact ⟨ordered_insert hordered _ _, tidyMembers_insert hmembers hmember _⟩

end Put

/-! Putting what a file holds. -/

theorem lookup_of_before
    {name : String} {held : List (String × Sourced)}
    (h : ∀ a ∈ held, a.1 < name) :
    lookup name held = none :=
  lookup_eq_none fun a ha heq => String.lt_irrefl _ (heq ▸ h a ha)

mutual

/-- A value with names in lower case, put where there is nothing, stays as it is. -/
theorem merge_value :
    ∀ {v : Json}, v.Tidy → v.Folded → ∀ origin, (merge origin v none).value = v
  | .object [], _, _, origin => by
      rw [merge, Option.getD_none, empty, value, valueMembers]
  | .object (head :: rest), htidy, hfolded, origin => by
      have hall := mergeMembers_value (head :: rest) [] (by simp) htidy.1 htidy.2 hfolded origin
      rw [merge, value]
      exact congrArg Json.object hall
  | .null, _, _, _ | .bool _, _, _, _ | .whole _, _, _, _ | .real _, _, _, _ |
    .string _, _, _, _ | .array _, _, _, _ => by
      simp [merge, value]

/-- Members with names in lower case are merged into what comes before them as they are. -/
theorem mergeMembers_value :
    ∀ (members : List (String × Json)) (held : List (String × Sourced)),
      (∀ a ∈ held, ∀ b ∈ members, a.1 < b.1) → Ordered members → TidyMembers members →
      FoldedMembers members → ∀ origin,
      valueMembers (mergeMembers origin members held) = valueMembers held ++ members
  | [], held, _, _, _, _, origin => by
      rw [mergeMembers, List.append_nil]
  | (name, v) :: rest, held, hbefore, hordered, htidy, hfolded, origin => by
      obtain ⟨hbelow, hrest⟩ := ordered_cons.1 hordered
      have hlast : ∀ a ∈ held, a.1 < name := fun a ha => hbefore a ha _ List.mem_cons_self
      have hmore : ∀ a ∈ held ++ [(name, merge origin v none)], ∀ b ∈ rest, a.1 < b.1 := by
        intro a ha b hb
        rcases List.mem_append.1 ha with ha | ha
        · exact hbefore a ha b (List.mem_cons_of_mem _ hb)
        · rw [List.mem_singleton.1 ha]
          exact hbelow b hb
      rw [mergeMembers, hfolded.1, lookup_of_before hlast, insert_last hlast,
        mergeMembers_value rest _ hmore hrest htidy.2 hfolded.2.2 origin, valueMembers_append,
        valueMembers, valueMembers, merge_value htidy.1 hfolded.2.1 origin, List.append_assoc,
        List.singleton_append]

end

theorem ontoTree_table
    {origin : String} {members : List (String × Json)}
    (hnames : ∀ m ∈ members, KeyPath.read m.1 = ⟨m.1, []⟩)
    (held : List (String × Sourced)) :
    Settings.ontoTree origin members (.table none held) =
      some (.table none (mergeMembers (some origin) members held)) := by
  induction members generalizing held with
  | nil =>
      rw [mergeMembers]
      rfl
  | cons head rest ih =>
      obtain ⟨name, v⟩ := head
      have hname : KeyPath.read name = ⟨name, []⟩ := hnames _ List.mem_cons_self
      have hput : putAt (.table none held) (KeyPath.read name) origin v =
          some (.table none (insert (Text.folded name)
            (merge (some origin) v (lookup (Text.folded name) held)) held)) := by
        rw [hname, putAt, put_member, put_nil]
        rfl
      have hstep : Settings.ontoTree origin ((name, v) :: rest) (.table none held) =
          (putAt (.table none held) (KeyPath.read name) origin v).bind
            (Settings.ontoTree origin rest) := rfl
      rw [hstep, hput, mergeMembers]
      exact ih (fun m hm => hnames m (List.mem_cons_of_mem _ hm)) _

/-- The tree of a file whose names are read as themselves is what the file holds. -/
theorem ontoTree_value
    {origin : String} {members : List (String × Json)}
    (hordered : Ordered members) (htidy : TidyMembers members)
    (hnames : ∀ m ∈ members, KeyPath.read m.1 = ⟨m.1, []⟩)
    (hfolded : FoldedMembers members) :
    ∃ tree, Settings.ontoTree origin members empty = some tree ∧
      tree.value = .object members := by
  refine ⟨_, ontoTree_table hnames [], ?_⟩
  rw [value, mergeMembers_value members [] (by simp) hordered htidy hfolded]
  rfl

end Sourced

namespace Settings

def names : List String :=
  ["listen", "transport", "framing", "tls", "max_message_size", "initial_data_timeout",
    "handshake_timeout", "max_connections", "shutdown_timeout", "output", "log_level"]

def tlsNames : List String :=
  ["key_file", "cert_file", "ca_file", "peer_verify"]

theorem treeOf_file
    {tree : FileTree} {path origin : String} {held : Octets} {members : List (String × Json)}
    {found : Sourced}
    (hleads : tree.leads path = true)
    (hat : fileAt tree path = .ok (origin, held))
    (hmembers : fileMembers origin held = .ok members)
    (honto : ontoTree origin members .empty = some found) :
    treeOf tree (some path) = .ok found := by
  simp only [treeOf, hleads, if_true, treeOfFile, hat, hmembers, honto]
  rfl

/-- A variable that is not about settings changes nothing. -/
theorem onto_of_foreign
    {held : Sourced} {v : Variable}
    (hkey : Variable.key? v.name = none) :
    Variable.onto held v = some held := by
  rw [Variable.onto, hkey]

theorem read_names :
    ∀ name ∈ names, KeyPath.read name = ⟨name, []⟩ ∧ Text.folded name = name := by
  decide +kernel

theorem folded_tlsNames :
    ∀ name ∈ tlsNames, Text.folded name = name := by
  decide +kernel

end Settings
end SyslogIntake
