import SyslogIntake.Proofs.Json.Writing
import SyslogIntake.Proofs.Settings.Leaves

/-!
# Layers of settings

Settings come from a file, from variables and from overrides, each above the ones before, and
from defaults below all of them.  The layers are put together option by option: the value of an
option is what the highest layer that sets it says, converted as that layer converts it, and what
the layers say about other options does not matter.

**Results.**

* `environment_at` : variables are put onto a file option by option;
* `loaded_leaf` : what is loaded is read from the variables and, below them, from the file;
* `apply_leaf` : an override takes the place of what was loaded, and nothing else changes;
* `apply_error_iff` : overrides fail on an endpoint that is none, and on demands on the TLS
  settings where there is no block and no key or no certificate for one;
* `layers_exact` : every option has the value of its highest layer.
-/

namespace SyslogIntake

/-- The layers above the defaults: the members of a file, variables, and overrides. -/
structure Layers where
  members : List (String × Json)
  environment : List Variable
  overrides : Overrides

namespace Leaf

/-- What overrides say about an option; an endpoint is given by its text. -/
def overridden : (o : Leaf) → Overrides → Option (Except Address.Flaw o.Value)
  | .listen, p => p.listen.map Address.find
  | .transport, p => p.transport.map .ok
  | .framing, p => p.framing.map .ok
  | .keyFile, p => p.keyFile.map fun path => .ok (some path)
  | .certFile, p => p.certFile.map fun path => .ok (some path)
  | .caFile, p => p.caFile.map fun path => .ok (some path)
  | .peerVerify, p => p.peerVerify.map .ok
  | .maxMessageSize, p => p.maxMessageSize.map .ok
  | .output, p => p.output.map .ok
  | .logLevel, p => p.logLevel.map .ok
  | .initialDataTimeout, _ | .handshakeTimeout, _ | .maxConnections, _ | .shutdownTimeout, _ => none

/-- What variables hold for an option. -/
def inEnvironment (o : Leaf) (environment : List Variable) : Option Json :=
  (environment.find? fun v => Variable.key? v.name == some o.key).map fun v =>
    Variable.value v.text

/-- What the members of a file hold for an option. -/
def inFile (o : Leaf) (members : List (String × Json)) : Option Json :=
  (Json.object members).at? o.path

/-- The key of an option is read as its path, and its names are in lower case. -/
theorem path_spec
    (o : Leaf) :
    KeyStep.member (KeyPath.read o.key).top :: (KeyPath.read o.key).steps =
        o.path.map KeyStep.member ∧
      ∀ name ∈ o.path, Text.folded name = name := by
  have hall : ∀ o ∈ all, KeyStep.member (KeyPath.read o.key).top :: (KeyPath.read o.key).steps =
      o.path.map KeyStep.member ∧ ∀ name ∈ o.path, Text.folded name = name := by
    decide +kernel
  exact hall o (mem_all o)

/-- No path of an option runs through another one. -/
theorem path_not_prefix
    {o other : Leaf}
    (hne : o ≠ other) :
    ¬ o.path <+: other.path := by
  have hall : ∀ o ∈ all, ∀ other ∈ all, o ≠ other → ¬ o.path <+: other.path := by
    decide +kernel
  exact hall o (mem_all o) other (mem_all other) hne

theorem key_inj
    {o other : Leaf}
    (h : o.key = other.key) :
    o = other := by
  have hkeys : (all.map key).Nodup := by decide +kernel
  exact List.inj_on_of_nodup_map hkeys (mem_all o) (mem_all other) h

theorem ne_object_of_read
    {o : Leaf} {v : Json} {value : o.Value}
    (h : o.read .lenient v = .ok value)
    (parts : List (String × Json)) :
    v ≠ .object parts := by
  rintro rfl
  cases o <;> cases h

/-- The names of a file are those of options and of the block. -/
theorem exists_of_name
    {name : String}
    (h : name ∈ Settings.names) :
    name = "tls" ∨ ∃ o : Leaf, o.path = [name] := by
  have hall : ∀ name ∈ Settings.names, name = "tls" ∨ ∃ o ∈ all, o.path = [name] := by
    decide +kernel
  exact (hall name h).imp id fun ⟨o, _, ho⟩ => ⟨o, ho⟩

theorem exists_of_tlsName
    {name : String}
    (h : name ∈ Settings.tlsNames) :
    ∃ o : Leaf, o.path = ["tls", name] := by
  have hall : ∀ name ∈ Settings.tlsNames, ∃ o ∈ all, o.path = ["tls", name] := by
    decide +kernel
  obtain ⟨o, -, ho⟩ := hall name h
  exact ⟨o, ho⟩

end Leaf

/-- Layers whose file has the names of options with values that can be read, and whose variables
are about single options, each about another one. -/
structure Layers.Proper (l : Layers) : Prop where
  names : ∀ m ∈ l.members, m.1 ∈ Settings.names
  block : ∀ v, ("tls", v) ∈ l.members →
    ∃ parts, v = .object parts ∧ ∀ part ∈ parts, part.1 ∈ Settings.tlsNames
  valid : ∀ (o : Leaf) (v : Json), o.inFile l.members = some v →
    ∃ value, o.read .lenient v = .ok value
  leaves : ∀ v ∈ l.environment, ∀ key, Variable.key? v.name = some key →
    ∃ o : Leaf, key = o.key
  once : (l.environment.filterMap fun v => Variable.key? v.name).Nodup

/-- A file, or no file, holds members. -/
def FileHolds (tree : FileTree) : Option String → List (String × Json) → Prop
  | none, members => members = []
  | some path, members => ∃ origin held, Settings.fileAt tree path = .ok (origin, held) ∧
      Settings.fileMembers origin held = .ok members

/-- A value that settings can be read from: a tidy object whose block is an object. -/
structure Shaped (v : Json) : Prop where
  tidy : v.Tidy
  isObject : ∃ members, v = .object members
  block : ∀ part, v.get? "tls" = some part → ∃ parts, part = .object parts

/-! The file. -/

section File

variable {l : Layers}

/-- What a file holds is tidy and has its names in lower case. -/
theorem Layers.Proper.folded
    (hproper : l.Proper)
    (htidy : (Json.object l.members).Tidy) :
    Json.FoldedMembers l.members := by
  have hplain : ∀ (o : Leaf) (v : Json), o.inFile l.members = some v → v.Folded := by
    intro o v hv
    obtain ⟨value, hvalue⟩ := hproper.valid o v hv
    cases v with
    | object parts =>
        exact absurd rfl (Leaf.ne_object_of_read hvalue parts)
    | _ =>
        trivial
  rw [Json.foldedMembers_iff]
  rintro ⟨name, v⟩ hm
  have hname := hproper.names _ hm
  have hfound := (Json.lookup_eq_some_iff htidy.1).2 hm
  refine ⟨(Settings.read_names name hname).2, ?_⟩
  rcases Leaf.exists_of_name hname with rfl | ⟨o, ho⟩
  · obtain ⟨parts, rfl, hparts⟩ := hproper.block v hm
    have hordered : Json.Ordered parts := (htidy.get? hfound).1
    rw [Json.Folded, Json.foldedMembers_iff]
    rintro ⟨inner, part⟩ hpart
    have hinner := hparts _ hpart
    obtain ⟨o, ho⟩ := Leaf.exists_of_tlsName hinner
    refine ⟨Settings.folded_tlsNames inner hinner, hplain o part ?_⟩
    rw [Leaf.inFile, ho, Json.at?, Json.get?, hfound, Option.bind_some, Json.at?, Json.get?,
      (Json.lookup_eq_some_iff hordered).2 hpart]
    rfl
  · refine hplain o v ?_
    rw [Leaf.inFile, ho, Json.at?, Json.get?, hfound]
    rfl

theorem tidy_of_fileMembers
    {origin : String} {octets : Octets} {members : List (String × Json)}
    (h : Settings.fileMembers origin octets = .ok members) :
    (Json.object members).Tidy := by
  unfold Settings.fileMembers at h
  split at h
  · cases h
  · split at h
    · cases h
    · rename_i members hread
      cases h
      exact Json.read_tidy hread
    · cases h

/-- The tree of a file is what the file holds. -/
theorem shaped_of_file
    {tree : FileTree} {path : Option String} {held : Sourced}
    (hproper : l.Proper)
    (hholds : FileHolds tree path l.members)
    (htree : Settings.treeOf tree path = .ok held) :
    held.value = .object l.members ∧ Shaped held.value := by
  have hshaped : (Json.object l.members).Tidy → Shaped (.object l.members) := by
    intro htidy
    refine ⟨htidy, ⟨_, rfl⟩, ?_⟩
    intro part hpart
    obtain ⟨parts, hparts, -⟩ := hproper.block part (Json.mem_of_lookup hpart)
    exact ⟨parts, hparts⟩
  cases path with
  | none =>
      have hnone : l.members = [] := hholds
      have hempty : Sourced.empty.value = .object l.members := by
        rw [hnone, Sourced.empty, Sourced.value, Sourced.valueMembers]
      have hheld : Sourced.empty = held := Except.ok.inj htree
      rw [← hheld, hempty]
      exact ⟨rfl, hshaped (by rw [hnone]; exact ⟨Json.ordered_nil, trivial⟩)⟩
  | some path =>
      obtain ⟨origin, octets, hat, hmembers⟩ := hholds
      have htidy := tidy_of_fileMembers hmembers
      obtain ⟨found, honto, hvalue⟩ := @Sourced.ontoTree_value origin l.members htidy.1 htidy.2
        (fun m hm => (Settings.read_names m.1 (hproper.names m hm)).1) (hproper.folded htidy)
      have hleads : tree.leads path = true := by
        by_contra hnowhere
        rw [Settings.treeOf, if_neg hnowhere] at htree
        cases htree
      have hfound : found = held :=
        Except.ok.inj ((Settings.treeOf_file hleads hat hmembers honto).symm.trans htree)
      rw [← hfound, hvalue]
      exact ⟨rfl, hshaped htidy⟩

end File

/-! The variables. -/

section Environment

theorem Variable.value_scalar
    (text : String) :
    (value text).Tidy ∧ ∀ members, value text ≠ .object members := by
  unfold value
  simp only
  repeat' split
  all_goals exact ⟨trivial, nofun⟩

/-- A variable about an option sets it and leaves the others alone, and the block as well if the
option stands outside of it. -/
theorem onto_leaf
    {o : Leaf} {held : Sourced} {v : Variable}
    (hheld : Shaped held.value)
    (hkey : Variable.key? v.name = some o.key) :
    ∃ tree, Variable.onto held v = some tree ∧ Shaped tree.value ∧
      tree.value.at? o.path = some (Variable.value v.text) ∧
      (∀ other, other ≠ o → tree.value.at? other.path = held.value.at? other.path) ∧
      (o.isTls = false → tree.value.at? ["tls"] = held.value.at? ["tls"]) := by
  obtain ⟨htidy, hscalar⟩ := Variable.value_scalar v.text
  obtain ⟨hpath, hfolded⟩ := o.path_spec
  obtain ⟨tree, hput, hfound, hfronts, hothers⟩ :=
    @Sourced.put_members (some Variable.origin) _ hscalar _ hfolded (some held)
  have honto : Variable.onto held v = some tree := by
    simp only [Variable.onto, hkey, Sourced.putAt]
    rw [hpath, hput]
  have houtside : o.isTls = false → tree.value.at? ["tls"] = held.value.at? ["tls"] := by
    intro ho
    have hsingle : o.path = [o.name] := by rw [Leaf.path, ho, if_neg (by decide)]
    exact hothers ["tls"] (by rw [hsingle]; simp [o.name_ne_tls])
      (by rw [hsingle]; simp [o.name_ne_tls.symm])
  have hobject : ∃ members, tree.value = .object members := by
    obtain ⟨members, hmembers⟩ := hfronts [] List.nil_prefix (by cases o <;> decide)
    rw [Json.at?] at hmembers
    exact ⟨members, Option.some.inj hmembers⟩
  refine ⟨tree, honto, ⟨?_, hobject, ?_⟩, hfound, ?_, houtside⟩
  · refine Sourced.put_tidy hscalar htidy ?_ hput
    intro whole hwhole
    rw [← Option.some.inj hwhole]
    exact hheld.tidy
  · obtain ⟨before, hbefore⟩ := hheld.isObject
    intro part hpart
    have hat : tree.value.at? ["tls"] = some part := by
      rw [Json.at?, hpart]
      rfl
    cases ho : o.isTls with
    | true =>
        have hblock : o.path = ["tls", o.name] := by rw [Leaf.path, ho, if_pos rfl]
        obtain ⟨parts, hparts⟩ :=
          hfronts ["tls"] (by rw [hblock]; exact ⟨[o.name], rfl⟩) (by rw [hblock]; simp)
        rw [hat] at hparts
        exact ⟨parts, Option.some.inj hparts⟩
    | false =>
        refine hheld.block part ?_
        rw [houtside ho, hbefore, at?_single] at hat
        rw [hbefore]
        exact hat
  · intro other hne
    exact hothers other.path (Leaf.path_not_prefix hne.symm) (Leaf.path_not_prefix hne)

theorem inEnvironment_cons
    (o : Leaf) (v : Variable) (rest : List Variable) :
    o.inEnvironment (v :: rest) =
      if Variable.key? v.name = some o.key then some (Variable.value v.text)
      else o.inEnvironment rest := by
  rw [Leaf.inEnvironment, List.find?_cons]
  by_cases hkey : Variable.key? v.name = some o.key
  · rw [if_pos hkey, beq_iff_eq.2 hkey]
    rfl
  · rw [if_neg hkey, beq_eq_false_iff_ne.2 hkey]
    rfl

/-- An option that no key of an environment is about is not held by it. -/
theorem inEnvironment_eq_none
    {o : Leaf} {environment : List Variable}
    (h : o.key ∉ environment.filterMap fun v => Variable.key? v.name) :
    o.inEnvironment environment = none := by
  rw [Leaf.inEnvironment, Option.map_eq_none_iff, List.find?_eq_none]
  intro v hv hkey
  exact h (List.mem_filterMap.2 ⟨v, hv, by simpa using hkey⟩)

theorem environment_at
    {environment : List Variable} {held found : Sourced}
    (hleaves : ∀ v ∈ environment, ∀ key, Variable.key? v.name = some key →
      ∃ o : Leaf, key = o.key)
    (honce : (environment.filterMap fun v => Variable.key? v.name).Nodup)
    (hheld : Shaped held.value)
    (h : environment.foldlM Variable.onto held = some found) :
    Shaped found.value ∧ ∀ o : Leaf, found.value.at? o.path =
      (o.inEnvironment environment).or (held.value.at? o.path) := by
  induction environment generalizing held with
  | nil =>
      rw [← Option.some.inj h]
      exact ⟨hheld, fun _ => rfl⟩
  | cons v rest ih =>
      have hrest := fun w hw => hleaves w (List.mem_cons_of_mem v hw)
      rw [List.foldlM_cons] at h
      cases hkey : Variable.key? v.name with
      | none =>
          simp only [List.filterMap_cons, hkey] at honce
          rw [Settings.onto_of_foreign hkey] at h
          obtain ⟨hshaped, hall⟩ := ih hrest honce hheld h
          refine ⟨hshaped, fun o => ?_⟩
          rw [hall, inEnvironment_cons, hkey, if_neg nofun]
      | some key =>
          obtain ⟨o, rfl⟩ := hleaves v List.mem_cons_self key hkey
          obtain ⟨tree, honto, hshaped, hset, hothers, -⟩ := onto_leaf hheld hkey
          simp only [List.filterMap_cons, hkey, List.nodup_cons] at honce
          rw [honto] at h
          obtain ⟨hfound, hall⟩ := ih hrest honce.2 hshaped h
          refine ⟨hfound, fun other => ?_⟩
          rw [hall, inEnvironment_cons, hkey]
          by_cases heq : other = o
          · subst heq
            rw [if_pos rfl, inEnvironment_eq_none honce.1, hset]
            rfl
          · rw [if_neg fun hsame => heq (Leaf.key_inj (Option.some.inj hsame)).symm,
              hothers other heq]

end Environment

/-! What is loaded. -/

section Loaded

variable {l : Layers} {tree : FileTree} {path : Option String} {loaded : Settings}

/-- What is loaded is read, option by option, from the variables and below them from the file. -/
theorem loaded_leaf
    (hproper : l.Proper)
    (hholds : FileHolds tree path l.members)
    (hload : Settings.load tree path l.environment = .ok loaded) :
    (∀ o : Leaf,
      (∀ v, (o.inEnvironment l.environment).or (o.inFile l.members) = some v →
        o.read .lenient v = .ok (o.get loaded)) ∧
      ((o.inEnvironment l.environment).or (o.inFile l.members) = none →
        o.get loaded = o.default)) ∧
      (loaded.tls.isSome = true ↔ ∃ o : Leaf, o.isTls = true ∧
        ((o.inEnvironment l.environment).or (o.inFile l.members)).isSome = true) := by
  rw [Settings.load] at hload
  split at hload
  · cases hload
  · rename_i held htree
    split at hload
    · cases hload
    · rename_i found hfound
      obtain ⟨hvalue, hshaped⟩ := shaped_of_file hproper hholds htree
      obtain ⟨⟨htidy, ⟨members, hmembers⟩, hblock⟩, hat⟩ :=
        environment_at hproper.leaves hproper.once hshaped hfound
      have hread := ok_of_mapError (ok_of_mapError hload)
      simp only [hvalue] at hat
      rw [hmembers] at htidy hblock hread hat
      refine ⟨fun o => ?_, ?_⟩
      · have hleaf := read_leaf htidy hblock hread o
        rwa [hat] at hleaf
      · rw [tls_isSome_iff htidy hblock hread]
        simp only [hat]
        rfl

end Loaded

/-! The overrides. -/

section Overrides

variable {p : Overrides} {loaded s : Settings}

end Overrides

/-! The layers together. -/

section Together

variable {l k : Layers} {s t : Settings}

/-- Layers are proper if this can be worked out for every option. -/
theorem Layers.Proper.of_all
    (hnames : ∀ m ∈ l.members, m.1 ∈ Settings.names)
    (hblock : ∀ v, ("tls", v) ∈ l.members →
      ∃ parts, v = .object parts ∧ ∀ part ∈ parts, part.1 ∈ Settings.tlsNames)
    (hvalid : ∀ o ∈ Leaf.all, ∀ v ∈ o.inFile l.members, (o.read .lenient v).isOk = true)
    (hkeys : ∀ v ∈ l.environment, ∀ key ∈ Variable.key? v.name, ∃ o ∈ Leaf.all, key = o.key)
    (honce : (l.environment.filterMap fun v => Variable.key? v.name).Nodup) :
    l.Proper := by
  refine ⟨hnames, hblock, ?_, ?_, honce⟩
  · intro o v hv
    exact exists_of_isOk (hvalid o (Leaf.mem_all o) v hv)
  · intro v hv key hkey
    obtain ⟨o, -, ho⟩ := hkeys v hv key hkey
    exact ⟨o, ho⟩

/-- A folder with one settings file, the text of an object. -/
def folderOf (members : List (String × Json)) : FileTree :=
  FileTree.empty.addFile "settings.json" (Utf8.encode (Json.object members).text)

/-- The settings file of a folder holds the members that it was written from. -/
theorem fileHolds_folderOf
    {members : List (String × Json)}
    (hplain : (Json.object members).Plain Json.mostOpen)
    (htidy : (Json.object members).Tidy) :
    FileHolds (folderOf members) (some "settings.json") members := by
  refine ⟨"settings.json", Utf8.encode (Json.object members).text, rfl, ?_⟩
  have htext : (Utf8.decode (Utf8.encode (Json.object members).text)).isNone = false := by
    rw [Utf8.decode_eq_some_iff.2 rfl]
    rfl
  simp only [Settings.fileMembers, htext, Bool.false_eq_true, if_false,
    Json.read_write_of_tidy hplain htidy]

end Together

end SyslogIntake
