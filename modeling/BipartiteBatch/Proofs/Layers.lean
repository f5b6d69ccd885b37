import BipartiteBatch.Proofs.Choices
import BipartiteBatch.Scan.Run

/-!
# Layers of a configuration

A scan has its options from a configuration file and from a text on top of that. If the choices of the file
pass the check alone, the two layers come to the same as the one text in which the items of the file precede
those of the text, and are refused for the same reason. The check of the file sees nothing of the text, so
that equal tags in the file are refused even where the text makes them different.

* `Config.onto` : the configuration of a text on top of another configuration;
* `Scan.Arguments.readerConfig_eq_ok`, `Scan.Arguments.readerConfig_of_error` : a text on top of a file;
* `Scan.Arguments.readerConfig_layered` : two layers and one text.
-/

namespace BipartiteBatch

namespace Config

variable {choices written : List Choice}

/-- The configuration of a text on top of another configuration. -/
def onto (c : Config) (text : String) : Except ConfigError Config :=
  (c.apply text).result.bind fun _ => (c.apply text).config.checked

theorem ofText_textOf (hrange : ∀ a ∈ choices, a.InRange) :
    (ofText (textOf choices)).1 = (chosen {} choices).checked := by
  obtain ⟨hresult, hconfig⟩ := apply_textOf hrange {}
  show onto {} (textOf choices) = _
  rw [onto, hresult, hconfig]
  rfl

theorem ofText_textOf_append (hrange : ∀ a ∈ choices, a.InRange) (text : String) :
    (ofText (textOf choices ++ ";" ++ text)).1 = (chosen {} choices).onto text := by
  obtain ⟨hresult, hconfig⟩ := apply_textOf_append hrange {} text
  show onto {} (textOf choices ++ ";" ++ text) = _
  rw [onto, hresult, hconfig]
  rfl

theorem ofJsonText_eq (hrange : ∀ a ∈ choices, a.InRange)
    (hdistinct : (choices.map Choice.setting).Nodup) (hperm : written.Perm choices) {text : String}
    (hjson : Json.parse? text = some (objectOf written)) :
    ofJsonText text = (chosen {} choices).checked.mapError .config := by
  have hread := ofJson?_choices (fun a ha => hrange a (hperm.mem_iff.1 ha))
    ((hperm.map Choice.setting).nodup_iff.2 hdistinct)
  have hchosen : JsonCodec.ofJsonText? text = some (chosen {} choices) := by
    rw [JsonCodec.ofJsonText?, hjson, Option.bind_some, hread, chosen_perm hperm hdistinct]
  rw [ofJsonText, hchosen]

theorem checked_eq_ok {c c' : Config} (h : c.checked = .ok c') : c' = c := by
  obtain ⟨-, -, h⟩ := except_bind_eq_ok.1 h
  exact (except_pure_eq_ok.1 h).symm

end Config

namespace Scan

namespace Arguments

variable {args : Arguments} {files : Files} {path text : String}

/-- The file alone must give a configuration that passes the check. -/
theorem baseConfig_eq (hfile : args.configFile = some path) (htext : files.text path = .ok text) :
    args.baseConfig files = (Config.ofJsonText text).mapError (.inContext (.acceptingConfig path)) := by
  unfold baseConfig
  rw [hfile]
  dsimp only
  rw [htext]
  rfl

theorem readerConfig_of_error {e : ScanFailure} (hbase : args.baseConfig files = .error e) :
    (args.readerConfig files).1 = .error e := by
  rw [readerConfig, hbase]

variable {base : Config}

theorem readerConfig_of_base (hbase : args.baseConfig files = .ok base) :
    (args.readerConfig files).1
      = ((base.apply args.config).result.mapError fun e => .inContext .applyingOption (.config e)) >>=
        fun _ => (base.apply args.config).config.checked.mapError fun e => .bare (.config e) := by
  rw [readerConfig, hbase]

/-- A text on top of a file gives the configuration of the text on top of that of the file. -/
theorem readerConfig_eq_ok (hbase : args.baseConfig files = .ok base) {c : Config} :
    (args.readerConfig files).1 = .ok c ↔ base.onto args.config = .ok c := by
  rw [readerConfig_of_base hbase, Config.onto, except_bind_eq_ok]
  simp only [mapError_eq_ok]
  exact except_bind_eq_ok.symm

/-- A text on top of a file is refused for the reason for which it is on top of the configuration. -/
theorem readerConfig_eq_error (hbase : args.baseConfig files = .ok base) {e : ConfigError}
    (h : base.onto args.config = .error e) :
    ∃ context, (args.readerConfig files).1 = .error (.error ⟨context, .batch (.config e)⟩) := by
  rw [readerConfig_of_base hbase]
  rcases except_bind_eq_error.1 h with hresult | ⟨_, hresult, hcheck⟩
  · rw [hresult]
    exact ⟨some .applyingOption, rfl⟩
  · rw [hresult, hcheck]
    exact ⟨none, rfl⟩

/-- Two layers give a configuration if the choices of the file pass the check alone and the one text of both
gives this configuration. Only the tags of the file alone can be refused, and then the file is, whatever the
text. If they are not, both are refused for one reason. -/
theorem readerConfig_layered {choices written : List Choice} (hrange : ∀ a ∈ choices, a.InRange)
    (hdistinct : (choices.map Choice.setting).Nodup) (hperm : written.Perm choices)
    (hfile : args.configFile = some path) (htext : files.text path = .ok text)
    (hjson : Json.parse? text = some (Config.objectOf written)) :
    (∀ c, (args.readerConfig files).1 = .ok c ↔
      (∃ alone, (Config.ofText (Config.textOf choices)).1 = .ok alone)
      ∧ (Config.ofText (Config.textOf choices ++ ";" ++ args.config)).1 = .ok c)
    ∧ (∀ e, (Config.ofText (Config.textOf choices)).1 = .error e →
      (∃ tag, e = .sameTags tag)
      ∧ (args.readerConfig files).1 = .error (.inContext (.acceptingConfig path) (.config e)))
    ∧ ∀ alone e, (Config.ofText (Config.textOf choices)).1 = .ok alone →
      (Config.ofText (Config.textOf choices ++ ";" ++ args.config)).1 = .error e →
      ∃ context, (args.readerConfig files).1 = .error (.error ⟨context, .batch (.config e)⟩) := by
  have hbase := baseConfig_eq hfile htext
  rw [Config.ofJsonText_eq hrange hdistinct hperm hjson] at hbase
  rw [Config.ofText_textOf hrange, Config.ofText_textOf_append hrange]
  -- the check of the file alone decides: the text is looked at only if the file passes it
  match hchecked : (Config.chosen {} choices).checked with
  | .error e =>
    rw [hchecked] at hbase
    have hrefused := readerConfig_of_error hbase
    refine ⟨fun c => ?_, ?_, nofun⟩
    · rw [hrefused]
      constructor
      · nofun
      · rintro ⟨⟨_, h⟩, -⟩
        cases h
    · rintro _ ⟨⟩
      refine ⟨?_, hrefused⟩
      rw [(Config.positive_default.chosen hrange).checked_eq] at hchecked
      split at hchecked
      · exact ⟨_, (Except.error.inj hchecked).symm⟩
      · cases hchecked
  | .ok alone =>
    rw [hchecked] at hbase
    obtain rfl := Config.checked_eq_ok hchecked
    refine ⟨fun c => ?_, nofun, ?_⟩
    · rw [readerConfig_eq_ok hbase]
      exact ⟨fun h => ⟨⟨_, rfl⟩, h⟩, And.right⟩
    · rintro _ e - h
      exact readerConfig_eq_error hbase h

end Arguments

/-- The arguments of a scan with a text on top of a configuration file. -/
def onTopOfFile (config : String) : Arguments where
  graph := "g.txt"
  directed := false
  inputs := ["a.txt"]
  config := config
  configFile := some "c.json"
  reader := ReaderKind.bipartite.name
  strategy := .uniform
  temperature := 1.0
  allowSelfNegatives := false
  seed := 0
  workers := 1
  dumpFirst := none

/-- The file has its options in another order than the one text; the text on top of it replaces one of
them. -/
theorem readerConfig_layered_replaced :
    ∃ files : Files, files.text "c.json" = .ok "\x7b\"num_neighbors\":[5],\"num_neg\":2\x7d"
      ∧ Config.textOf [.numNeg 2, .numNeighbors [5]] = "num_neg=2;num_neighbors=5"
      ∧ ((onTopOfFile "num_neg=7").readerConfig files).1 = .ok { numNeg := 7, numNeighbors := [5] } := by
  have hrange : ∀ a ∈ [Choice.numNeg 2, .numNeighbors [5]], a.InRange := by decide
  have hcompact : (Config.objectOf [.numNeighbors [5], .numNeg 2]).compact
      = "\x7b\"num_neighbors\":[5],\"num_neg\":2\x7d" := by decide +kernel
  have hjson := Json.parse?_compact (Config.objectOf [.numNeighbors [5], .numNeg 2])
  rw [hcompact] at hjson
  have htext : (Files.ofList [("c.json", "\x7b\"num_neighbors\":[5],\"num_neg\":2\x7d".toUTF8)]).text
      "c.json" = .ok "\x7b\"num_neighbors\":[5],\"num_neg\":2\x7d" := by decide +kernel
  have hfile : (onTopOfFile "num_neg=7").configFile = some "c.json" := rfl
  obtain ⟨hok, -, -⟩ := Arguments.readerConfig_layered hrange (by decide) (.swap _ _ _) hfile htext hjson
  exact ⟨_, htext, by decide +kernel, (hok _).2 ⟨⟨_, rfl⟩, by decide +kernel⟩⟩

/-- A file makes the tags equal, and the text on top of it makes them different again. The file is refused,
while the one text is accepted. -/
theorem readerConfig_repairedTags :
    ∃ files : Files, files.text "c.json" = .ok "\x7b\"user_ns_id\":1\x7d"
      ∧ Json.parse? "\x7b\"user_ns_id\":1\x7d" = some (Config.objectOf [.userTag 1])
      ∧ ((onTopOfFile "item_ns_id=0").readerConfig files).1
        = .error (.inContext (.acceptingConfig "c.json") (.config (.sameTags 1)))
      ∧ (Config.ofText (Config.textOf [.userTag 1] ++ ";" ++ "item_ns_id=0")).1
        = .ok { userTag := 1, itemTag := 0 } := by
  have hcompact : (Config.objectOf [.userTag 1]).compact = "\x7b\"user_ns_id\":1\x7d" := by decide +kernel
  have hjson := Json.parse?_compact (Config.objectOf [.userTag 1])
  rw [hcompact] at hjson
  exact ⟨.ofList [("c.json", "\x7b\"user_ns_id\":1\x7d".toUTF8)], by decide +kernel, hjson,
    by decide +kernel, by decide +kernel⟩

end Scan

end BipartiteBatch
