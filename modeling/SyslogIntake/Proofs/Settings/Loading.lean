import SyslogIntake.Proofs.Settings.Layers
import SyslogIntake.Proofs.Settings.Texts

/-!
# Layers that settings are loaded from

Loading fails on a value that an option cannot be read from, and on a block of TLS settings that
lacks its key or its certificate.  Where each option that is set can be read, and a block has
both, settings are loaded.  A text arrives in them as it is if a file gives it; from a variable it
arrives as the text that is held for it.

**Results.**

* `exists_readMembers` : members are read if each of them can be taken;
* `exists_ofJson` : settings are read from an object whose options can be read;
* `exists_environment` : variables about options can be put onto a file;
* `environment_block` : only variables about the block make one;
* `exists_load` : settings are loaded from sound layers;
* `loaded_texts` : which texts arrive in them.
-/

namespace SyslogIntake

namespace Leaf

/-- What the variables and, below them, the file hold for an option. -/
def held (o : Leaf) (l : Layers) : Option Json :=
  (o.inEnvironment l.environment).or (o.inFile l.members)

/-- Whether an option holds a text as it is given. -/
def isText : Leaf → Bool
  | .keyFile | .certFile | .caFile | .output | .logLevel => true
  | _ => false

/-- The text that the value of an option is, for an option that holds texts. -/
def text? : (o : Leaf) → o.Value → Option String
  | .keyFile, x | .certFile, x | .caFile, x => x
  | .output, x | .logLevel, x => some x
  | _, _ => none

theorem path?_of_text
    {v : Json} {text : String}
    (htext : Reading.lenientText v = .ok text) :
    Reading.path? .lenient v = .ok (some text) := by
  have hpath : (Reading.path .lenient v).map some = .ok (some text) :=
    congrArg (Except.map some) htext
  cases v with
  | null => cases htext
  | _ => exact hpath

theorem exists_read_text
    {o : Leaf} {v : Json} {text : String}
    (ho : o.isText = true)
    (htext : Reading.lenientText v = .ok text) :
    ∃ value, o.read .lenient v = .ok value ∧ o.text? value = some text := by
  have hsome : (Reading.path .lenient v).map some = .ok (some text) :=
    congrArg (Except.map some) htext
  cases o with
  | keyFile => exact ⟨some text, hsome, rfl⟩
  | certFile => exact ⟨some text, hsome, rfl⟩
  | caFile => exact ⟨some text, path?_of_text htext, rfl⟩
  | output => exact ⟨text, htext, rfl⟩
  | logLevel => exact ⟨text, htext, rfl⟩
  | _ => cases ho

end Leaf

/-- Layers that settings can be loaded from: what variables hold for an option that is no text can
be read, and a block of TLS settings, in the file or by variables, has its key and its
certificate.  About the texts of options nothing is asked. -/
structure Layers.Sound (l : Layers) : Prop where
  proper : l.Proper
  read : ∀ o : Leaf, o.isText = false → ∀ v, o.inEnvironment l.environment = some v →
    ∃ value, o.read .lenient v = .ok value
  block : (∃ v, ("tls", v) ∈ l.members) ∨
    (∃ o : Leaf, o.isTls = true ∧ (o.inEnvironment l.environment).isSome = true) →
      (Leaf.keyFile.held l).isSome = true ∧ (Leaf.certFile.held l).isSome = true

/-! Reading. -/

/-- Members are read if each of them can be taken. -/
theorem exists_readMembers
    {σ : Type} {fields : List (Field σ)} {reading : Reading} {members : List (String × Json)}
    (h : ∀ field ∈ fields, ∀ v, (field.name, v) ∈ members → ∀ held,
      ∃ next, field.set reading v held = .ok next)
    (held : σ) :
    ∃ found, Field.readMembers fields reading members held = .ok found := by
  induction members generalizing held with
  | nil =>
      exact ⟨held, rfl⟩
  | cons head rest ih =>
      obtain ⟨name, v⟩ := head
      have hrest := ih fun field hfield w hw => h field hfield w (List.mem_cons_of_mem _ hw)
      rw [Field.readMembers]
      split
      · exact hrest held
      · rename_i field hsome
        have hfield := List.mem_of_find?_eq_some hsome
        have hname : field.name = name := by simpa using List.find?_some hsome
        obtain ⟨next, hnext⟩ := h field hfield v (by rw [hname]; exact List.mem_cons_self) held
        have htake : field.take reading (.member name) v held = .ok next := by
          rw [Field.take, hnext]
          rfl
        rw [htake]
        exact hrest next

section Reading

variable {reading : Reading}

/-- A block is read whose options can be read and that has a key and a certificate. -/
theorem exists_block
    {parts : List (String × Json)}
    (htidy : (Json.object parts).Tidy)
    (hread : ∀ o : Leaf, o.isTls = true → ∀ v, Json.lookup o.name parts = some v →
      ∃ value, o.read reading v = .ok value)
    (hkey : (Json.lookup Leaf.keyFile.name parts).isSome = true)
    (hcert : (Json.lookup Leaf.certFile.name parts).isSome = true) :
    ∃ found, TlsSettings.read? reading (.object parts) = .ok found := by
  obtain ⟨draft, hdraft⟩ : ∃ draft, Field.readMembers TlsSettings.fields reading parts
      TlsSettings.emptyDraft = .ok draft := by
    refine exists_readMembers ?_ _
    intro field hfield v hv held
    obtain ⟨o, ho, rfl⟩ := mem_tlsFields.1 hfield
    obtain ⟨value, hvalue⟩ := hread o ho v ((Json.lookup_eq_some_iff htidy.1).2 hv)
    exact ⟨_, congrArg (Except.map fun found => o.putDraft found held) hvalue⟩
  obtain ⟨key, hkey⟩ := Option.isSome_iff_exists.1 hkey
  obtain ⟨cert, hcert⟩ := Option.isSome_iff_exists.1 hcert
  have hkeyFile := (readMembers_part (decides_draft (o := .keyFile) rfl) htidy.1 hdraft).1 key hkey
  have hcertFile :=
    (readMembers_part (decides_draft (o := .certFile) rfl) htidy.1 hdraft).1 cert hcert
  obtain ⟨keyFile, -, hkeySome⟩ := exists_of_map hkeyFile
  obtain ⟨certFile, -, hcertSome⟩ := exists_of_map hcertFile
  refine ⟨some ⟨keyFile, certFile, draft.caFile, draft.peerVerify⟩, ?_⟩
  have hmade : TlsSettings.ofDraft draft =
      .ok ⟨keyFile, certFile, draft.caFile, draft.peerVerify⟩ := by
    have hkeyDraft : draft.keyFile = some keyFile := hkeySome.symm
    have hcertDraft : draft.certFile = some certFile := hcertSome.symm
    rw [TlsSettings.ofDraft, hkeyDraft, hcertDraft]
  have hwhole : TlsSettings.read reading (.object parts) =
      .ok ⟨keyFile, certFile, draft.caFile, draft.peerVerify⟩ := by
    rw [TlsSettings.read, hdraft]
    exact congrArg (Except.mapError Misfit.missingField) hmade
  exact congrArg (Except.map some) hwhole

/-- Settings are read from an object whose options can be read, and whose block, if it has one,
has a key and a certificate. -/
theorem exists_ofJson
    {members : List (String × Json)}
    (htidy : (Json.object members).Tidy)
    (hblock : ∀ v, Json.lookup "tls" members = some v → ∃ parts, v = .object parts)
    (hread : ∀ (o : Leaf) (v : Json), (Json.object members).at? o.path = some v →
      ∃ value, o.read reading v = .ok value)
    (hboth : (Json.lookup "tls" members).isSome = true →
      ((Json.object members).at? Leaf.keyFile.path).isSome = true ∧
        ((Json.object members).at? Leaf.certFile.path).isSome = true) :
    ∃ s, Settings.ofJson reading (.object members) = .ok s := by
  refine exists_readMembers ?_ _
  intro field hfield v hv held
  have hfound := (Json.lookup_eq_some_iff htidy.1).2 hv
  rcases mem_fields.1 hfield with rfl | ⟨o, ho, rfl⟩
  · obtain ⟨parts, rfl⟩ := hblock v hfound
    have hparts : (Json.object parts).Tidy := htidy.get? hfound
    have hinside : ∀ o : Leaf, o.isTls = true →
        (Json.object members).at? o.path = Json.lookup o.name parts := by
      intro o ho
      have hmember : Json.lookup "tls" members = some (.object parts) := hfound
      rw [at?_inside ho, hmember]
      rfl
    obtain ⟨hkey, hcert⟩ := hboth (Option.isSome_of_eq_some hfound)
    rw [hinside _ rfl] at hkey hcert
    obtain ⟨found, hblockRead⟩ := exists_block hparts
      (fun o ho w hw => hread o w (by rw [hinside o ho, hw])) hkey hcert
    have hput := congrArg (Except.map fun found => { held with tls := found }) hblockRead
    exact ⟨_, hput⟩
  · obtain ⟨value, hvalue⟩ := hread o v (by rw [at?_outside ho]; exact hfound)
    exact ⟨_, congrArg (Except.map fun found => o.put found held) hvalue⟩

end Reading

/-! The variables. -/

section Environment

variable {environment : List Variable} {held : Sourced}
variable (hleaves : ∀ v ∈ environment, ∀ key, Variable.key? v.name = some key →
  ∃ o : Leaf, key = o.key)

include hleaves

/-- Variables about options can be put onto a tree that settings can be read from. -/
theorem exists_environment
    (hheld : Shaped held.value) :
    ∃ found, environment.foldlM Variable.onto held = some found := by
  induction environment generalizing held with
  | nil =>
      exact ⟨held, rfl⟩
  | cons v rest ih =>
      have hrest := fun w hw => hleaves w (List.mem_cons_of_mem v hw)
      rw [List.foldlM_cons]
      cases hkey : Variable.key? v.name with
      | none =>
          rw [Settings.onto_of_foreign hkey]
          exact ih hrest hheld
      | some key =>
          obtain ⟨o, rfl⟩ := hleaves v List.mem_cons_self key hkey
          obtain ⟨tree, honto, hshaped, -⟩ := onto_leaf hheld hkey
          rw [honto]
          exact ih hrest hshaped

/-- Variables about options outside of the block of TLS settings leave the block alone. -/
theorem environment_block
    {found : Sourced}
    (hnone : ∀ o : Leaf, o.isTls = true → o.inEnvironment environment = none)
    (hheld : Shaped held.value)
    (h : environment.foldlM Variable.onto held = some found) :
    found.value.at? ["tls"] = held.value.at? ["tls"] := by
  induction environment generalizing held with
  | nil =>
      rw [← Option.some.inj h]
  | cons v rest ih =>
      have hrest := fun w hw => hleaves w (List.mem_cons_of_mem v hw)
      have hnoneRest : ∀ o : Leaf, o.isTls = true → o.inEnvironment rest = none := by
        intro o ho
        have hfirst := hnone o ho
        rw [inEnvironment_cons] at hfirst
        split_ifs at hfirst
        exact hfirst
      rw [List.foldlM_cons] at h
      cases hkey : Variable.key? v.name with
      | none =>
          rw [Settings.onto_of_foreign hkey] at h
          exact ih hrest hnoneRest hheld h
      | some key =>
          obtain ⟨o, rfl⟩ := hleaves v List.mem_cons_self key hkey
          obtain ⟨tree, honto, hshaped, -, -, houtside⟩ := onto_leaf hheld hkey
          have ho : o.isTls = false := by
            by_contra hinside
            have hfirst := hnone o (by simpa using hinside)
            rw [inEnvironment_cons, if_pos hkey] at hfirst
            cases hfirst
          rw [honto] at h
          exact (ih hrest hnoneRest hshaped h).trans (houtside ho)

omit hleaves in
/-- What is held for an option is the value of a variable about it. -/
theorem exists_of_inEnvironment
    {o : Leaf} {held : Json}
    (h : o.inEnvironment environment = some held) :
    ∃ v ∈ environment, Variable.key? v.name = some o.key ∧ held = Variable.value v.text := by
  obtain ⟨v, hfind, rfl⟩ := Option.map_eq_some_iff.1 h
  have hkey := List.find?_some hfind
  exact ⟨v, List.mem_of_find?_eq_some hfind, by simpa using hkey, rfl⟩

omit hleaves in
theorem inEnvironment_of_mem
    {o : Leaf} {v : Variable}
    (honce : (environment.filterMap fun v => Variable.key? v.name).Nodup)
    (hv : v ∈ environment) (hkey : Variable.key? v.name = some o.key) :
    o.inEnvironment environment = some (Variable.value v.text) := by
  induction environment with
  | nil =>
      cases hv
  | cons w rest ih =>
      rw [inEnvironment_cons]
      rcases List.mem_cons.1 hv with rfl | hrest
      · rw [if_pos hkey]
      · rw [List.filterMap_cons] at honce
        have hbehind : o.key ∈ rest.filterMap fun v => Variable.key? v.name :=
          List.mem_filterMap.2 ⟨v, hrest, hkey⟩
        cases hw : Variable.key? w.name with
        | none =>
            rw [hw] at honce
            rw [if_neg nofun]
            exact ih honce hrest
        | some key =>
            rw [hw, List.nodup_cons] at honce
            have hne : key ≠ o.key := by
              rintro rfl
              exact honce.1 hbehind
            rw [if_neg fun hsame => hne (Option.some.inj hsame)]
            exact ih honce.2 hrest

end Environment

/-! The settings. -/

section Load

variable {l : Layers} {tree : FileTree} {path : Option String}

theorem exists_treeOf
    (hproper : l.Proper)
    (hholds : FileHolds tree path l.members)
    (hleads : ∀ place ∈ path, tree.leads place = true) :
    ∃ held, Settings.treeOf tree path = .ok held := by
  cases path with
  | none =>
      exact ⟨.empty, rfl⟩
  | some path =>
      obtain ⟨origin, octets, hat, hmembers⟩ := hholds
      have htidy := tidy_of_fileMembers hmembers
      obtain ⟨found, honto, -⟩ := @Sourced.ontoTree_value origin l.members htidy.1 htidy.2
        (fun m hm => (Settings.read_names m.1 (hproper.names m hm)).1) (hproper.folded htidy)
      exact ⟨found, Settings.treeOf_file (hleads path rfl) hat hmembers honto⟩

/-- What sound layers hold for an option can be read. -/
theorem Layers.Sound.exists_read
    (hsound : l.Sound)
    {o : Leaf} {v : Json}
    (hheld : o.held l = some v) :
    ∃ value, o.read .lenient v = .ok value := by
  cases henv : o.inEnvironment l.environment with
  | some w =>
      rw [Leaf.held, henv, Option.some_or] at hheld
      cases hheld
      cases ho : o.isText with
      | true =>
          obtain ⟨v, -, -, rfl⟩ := exists_of_inEnvironment henv
          obtain ⟨value, hvalue, -⟩ :=
            Leaf.exists_read_text ho (Variable.lenientText_value v.text)
          exact ⟨value, hvalue⟩
      | false =>
          exact hsound.read o ho _ henv
  | none =>
      rw [Leaf.held, henv, Option.none_or] at hheld
      exact hsound.proper.valid o v hheld

/-- Variables put a block of TLS settings onto the file of sound layers only with a key and a
certificate for it. -/
theorem Layers.Sound.block_found
    (hsound : l.Sound)
    {file found : Sourced}
    (hfile : file.value = .object l.members) (hshaped : Shaped file.value)
    (hfound : l.environment.foldlM Variable.onto file = some found)
    (hthere : (found.value.at? ["tls"]).isSome = true) :
    (Leaf.keyFile.held l).isSome = true ∧ (Leaf.certFile.held l).isSome = true := by
  refine hsound.block ?_
  by_contra hnowhere
  obtain ⟨hnofile, hnovariable⟩ := not_or.1 hnowhere
  have hnone : ∀ o : Leaf, o.isTls = true → o.inEnvironment l.environment = none := by
    intro o ho
    by_contra hheld
    exact hnovariable ⟨o, ho, Option.isSome_iff_ne_none.2 hheld⟩
  rw [environment_block hsound.proper.leaves hnone hshaped hfound, hfile, at?_single] at hthere
  obtain ⟨v, hv⟩ := Option.isSome_iff_exists.1 hthere
  exact hnofile ⟨v, Json.mem_of_lookup hv⟩

theorem exists_load
    (hsound : l.Sound)
    (hholds : FileHolds tree path l.members)
    (hleads : ∀ place ∈ path, tree.leads place = true) :
    ∃ s, Settings.load tree path l.environment = .ok s := by
  have hproper := hsound.proper
  obtain ⟨file, htree⟩ := exists_treeOf hproper hholds hleads
  obtain ⟨hfile, hshaped⟩ := shaped_of_file hproper hholds htree
  obtain ⟨found, hfound⟩ := exists_environment hproper.leaves hshaped
  obtain ⟨⟨htidy, ⟨members, hmembers⟩, hblock⟩, hat⟩ :=
    environment_at hproper.leaves hproper.once hshaped hfound
  have hboth := hsound.block_found hfile hshaped hfound
  simp only [hfile] at hat
  rw [hmembers] at htidy hblock hat
  rw [hmembers, at?_single] at hboth
  have hread : ∀ (o : Leaf) (v : Json), (Json.object members).at? o.path = some v →
      ∃ value, o.read .lenient v = .ok value := by
    intro o v hv
    rw [hat] at hv
    exact hsound.exists_read hv
  obtain ⟨s, hs⟩ := exists_ofJson htidy hblock hread
    (fun hthere => by rw [hat, hat]; exact hboth hthere)
  refine ⟨s, ?_⟩
  simp only [Settings.load, htree, hfound, Settings.ofSourced, hmembers, hs]
  rfl

theorem text?_of_held
    {o : Leaf} {v : Json} {text : String} {s : Settings}
    (hsound : l.Sound)
    (hholds : FileHolds tree path l.members)
    (hload : Settings.load tree path l.environment = .ok s)
    (ho : o.isText = true)
    (hheld : o.held l = some v)
    (htext : Reading.lenientText v = .ok text) :
    o.text? (o.get s) = some text := by
  obtain ⟨value, hread, hvalue⟩ := Leaf.exists_read_text ho htext
  have hgot := ((loaded_leaf hsound.proper hholds hload).1 o).1 v hheld
  rw [Except.ok.inj (hgot.symm.trans hread)]
  exact hvalue

/--
Settings are loaded from sound layers, whatever the texts of their options are.  An option that
holds a text has the text that is held for the one of its variable, which is the text of the
variable itself exactly if it is kept; without a variable it has the text that the file gives.
-/
theorem loaded_texts
    (hsound : l.Sound)
    (hholds : FileHolds tree path l.members)
    (hleads : ∀ place ∈ path, tree.leads place = true) :
    ∃ s, Settings.load tree path l.environment = .ok s ∧
      ∀ o : Leaf, o.isText = true →
        (∀ v ∈ l.environment, Variable.key? v.name = some o.key →
          o.text? (o.get s) = some (Variable.heldText v.text) ∧
            (o.text? (o.get s) = some v.text ↔ Variable.Kept v.text)) ∧
        (∀ text, (∀ v ∈ l.environment, Variable.key? v.name ≠ some o.key) →
          o.inFile l.members = some (.string text) → o.text? (o.get s) = some text) := by
  obtain ⟨s, hload⟩ := exists_load hsound hholds hleads
  refine ⟨s, hload, ?_⟩
  intro o ho
  constructor
  · intro v hv hkey
    have henv := inEnvironment_of_mem hsound.proper.once hv hkey
    have htext := text?_of_held hsound hholds hload ho
      (by rw [Leaf.held, henv, Option.some_or]) (Variable.lenientText_value v.text)
    refine ⟨htext, ?_⟩
    rw [htext, Option.some.injEq]
    exact Variable.heldText_eq_iff
  · intro text hnone hfile
    have henv : o.inEnvironment l.environment = none := by
      refine inEnvironment_eq_none ?_
      intro hin
      obtain ⟨v, hv, hkey⟩ := List.mem_filterMap.1 hin
      exact hnone v hv hkey
    exact text?_of_held hsound hholds hload ho
      (by rw [Leaf.held, henv, Option.none_or, hfile]) rfl

/-- A file with a level that reads as a number, and variables whose texts read as numbers, one of
them with zeros that no number is written with. -/
def numbered : Layers where
  members := [("log_level", .string "1.50")]
  environment :=
    [⟨"SYSLOG_AUTODETECT_OUTPUT", "007"⟩, ⟨"SYSLOG_AUTODETECT_TLS__KEY_FILE", "0.5"⟩,
      ⟨"SYSLOG_AUTODETECT_TLS__CERT_FILE", "cert.pem"⟩,
      ⟨"SYSLOG_AUTODETECT_MAX_CONNECTIONS", "7"⟩]
  overrides := .none

theorem numbered_sound :
    numbered.Sound := by
  have hread : ∀ o ∈ Leaf.all, o.isText = false →
      ∀ v ∈ o.inEnvironment numbered.environment, (o.read .lenient v).isOk = true := by
    decide +kernel
  refine ⟨.of_all (by decide +kernel) ?_ (by decide +kernel) (by decide +kernel)
    (by decide +kernel), ?_, fun _ => by decide +kernel⟩
  · intro v hv
    simp [numbered] at hv
  · intro o ho v hv
    exact exists_of_isOk (hread o (Leaf.mem_all o) ho v hv)

theorem loaded_texts_numbered :
    numbered.Sound ∧
      FileHolds (folderOf numbered.members) (some "settings.json") numbered.members ∧
      ∃ s, Settings.load (folderOf numbered.members) (some "settings.json")
          numbered.environment = .ok s ∧
        s.output = "7" ∧ ¬ Variable.Kept "007" ∧
        s.tls.map (·.keyFile) = some "0.5" ∧ Variable.Kept "0.5" ∧
        s.logLevel = "1.50" := by
  have hholds : FileHolds (folderOf numbered.members) (some "settings.json") numbered.members :=
    fileHolds_folderOf (by simp [numbered, Json.Plain, Json.PlainMembers, Json.mostOpen])
      ⟨by decide +kernel, trivial, trivial⟩
  have hleads : ∀ place ∈ some "settings.json", (folderOf numbered.members).leads place = true := by
    decide +kernel
  have hzeros : Variable.heldText "007" = "7" := by decide +kernel
  have hhalf : Variable.heldText "0.5" = "0.5" := by decide +kernel
  obtain ⟨s, hload, htexts⟩ := loaded_texts numbered_sound hholds hleads
  obtain ⟨houtput, hlost⟩ := (htexts .output rfl).1 ⟨"SYSLOG_AUTODETECT_OUTPUT", "007"⟩
    (by simp [numbered]) (by decide +kernel)
  obtain ⟨hkey, hkept⟩ := (htexts .keyFile rfl).1 ⟨"SYSLOG_AUTODETECT_TLS__KEY_FILE", "0.5"⟩
    (by simp [numbered]) (by decide +kernel)
  have hlevel := (htexts .logLevel rfl).2 "1.50" (by decide +kernel) rfl
  simp only [hzeros] at houtput
  simp only [hhalf] at hkey
  refine ⟨numbered_sound, hholds, s, hload, Option.some.inj houtput, ?_, hkey, hkept.1 hkey,
    Option.some.inj hlevel⟩
  intro hsame
  have hdiffers : some "7" = some "007" := houtput.symm.trans (hlost.2 hsame)
  exact absurd hdiffers (by decide)

/-- Zeros in front of a number are lost if a variable gives the text, and kept if a file does. -/
theorem load_zeros_lost :
    Settings.load .empty none [⟨"SYSLOG_AUTODETECT_OUTPUT", "007"⟩] =
        .ok { Settings.default with output := "7" } ∧
      Settings.load (folderOf [("output", .string "007")]) (some "settings.json") [] =
        .ok { Settings.default with output := "007" } := by
  constructor
  · decide +kernel
  · decide +kernel

end Load

end SyslogIntake
