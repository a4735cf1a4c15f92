import PeerWatch.Probe.Failure

/-!
# What the text of an error betrays

Some errors tell their class only by their text, which is searched for phrases.  Where in
the text a phrase stands, and in which case its letters are written, does not matter; so
more text around a text can betray more and never less, and a wrong peer is betrayed
whatever else is said of the network.

* `StandsIn`, `Betrays` — a phrase in a text, and one of several;
* `occursIn_map_iff`, `mentions_iff` — what the search finds;
* `matchPhrases_cases`, `rank_matchPhrases_le` — what a text betrays;
* `ConnectionError.classify_eq_unknown_iff`, `ConnectionError.classify_eq_fatal_iff` — the
  class of an error;
* `phrases_are_found_anywhere`.
-/

namespace PeerWatch

/-- The same letters, each in either case; only the letters from A to Z have two. -/
def SameLetters (a b : List Char) : Prop := a.map Char.toLower = b.map Char.toLower

/-- A part of a text is a phrase, letters of either case. -/
def StandsIn (phrase text : String) : Prop :=
  ∃ part, part <:+: text.toList ∧ SameLetters part phrase.toList

/-- One of some phrases stands in a text. -/
def Betrays (phrases : List String) (text : String) : Prop :=
  ∃ phrase ∈ phrases, StandsIn phrase text

/-- How much is told by a class that a text betrays. -/
def FailureClass.rank : FailureClass → Nat
  | .unknown => 0
  | .transientNetwork => 1
  | .protocolMismatch => 2
  | .fatal => 3

section Search

variable {phrases : List String} {phrase text text' : String}

/-- The search finds a phrase wherever it stands. -/
theorem occursIn_iff (phrase text : List Char) : occursIn phrase text ↔ phrase <:+: text := by
  induction text with
  | nil => simp [occursIn]
  | cons c rest ih =>
      rw [occursIn, Bool.or_eq_true, List.isPrefixOf_iff_prefix, ih, List.infix_cons_iff]

/-- A phrase in lower case is searched for in the text in lower case. -/
theorem occursIn_map_iff (hlower : phrase.toList.map Char.toLower = phrase.toList) :
    occursIn phrase.toList (text.toList.map Char.toLower) ↔ StandsIn phrase text := by
  rw [occursIn_iff, List.infix_map_iff]
  constructor
  · rintro ⟨part, hpart, hletters⟩
    exact ⟨part, hpart, hletters.symm.trans hlower.symm⟩
  · rintro ⟨part, hpart, hletters⟩
    exact ⟨part, hpart, hlower.symm.trans hletters.symm⟩

/-- The phrases of both tables are in lower case. -/
theorem map_toLower_of_mem (h : phrase ∈ mismatchPhrases ++ transientPhrases) :
    phrase.toList.map Char.toLower = phrase.toList := by
  have hall : ∀ phrase ∈ mismatchPhrases ++ transientPhrases,
      phrase.toList.map Char.toLower = phrase.toList := by decide
  exact hall phrase h

/-- A text mentions phrases of the tables if one of them stands in it. -/
theorem mentions_iff (h : ∀ phrase ∈ phrases, phrase ∈ mismatchPhrases ++ transientPhrases) :
    mentions phrases text ↔ Betrays phrases text := by
  rw [mentions, List.any_eq_true]
  constructor
  · rintro ⟨phrase, hphrase, hoccurs⟩
    exact ⟨phrase, hphrase, (occursIn_map_iff (map_toLower_of_mem (h phrase hphrase))).1 hoccurs⟩
  · rintro ⟨phrase, hphrase, hstands⟩
    exact ⟨phrase, hphrase, (occursIn_map_iff (map_toLower_of_mem (h phrase hphrase))).2 hstands⟩

/-- The search for phrases of a mismatch finds them wherever they are. -/
theorem mentions_mismatch_iff :
    mentions mismatchPhrases text ↔ Betrays mismatchPhrases text :=
  mentions_iff fun _ => List.mem_append_left _

/-- The search for phrases of trouble with the network finds them wherever they are. -/
theorem mentions_transient_iff :
    mentions transientPhrases text ↔ Betrays transientPhrases text :=
  mentions_iff fun _ => List.mem_append_right _

/-- What stands in a text stands in every text around it. -/
theorem Betrays.append (h : Betrays phrases text) (before after : String) :
    Betrays phrases (before ++ text ++ after) := by
  obtain ⟨phrase, hphrase, part, hpart, hletters⟩ := h
  refine ⟨phrase, hphrase, part, hpart.trans ?_, hletters⟩
  rw [String.toList_append, String.toList_append]
  exact List.infix_append _ _ _

/-- What stands in a text stands in it in either case. -/
theorem Betrays.of_sameLetters (h : Betrays phrases text)
    (hsame : SameLetters text.toList text'.toList) : Betrays phrases text' := by
  obtain ⟨phrase, hphrase, part, hpart, hletters⟩ := h
  have hinfix : part.map Char.toLower <:+: text'.toList.map Char.toLower := by
    rw [← hsame]
    exact hpart.map _
  obtain ⟨part', hpart', hsame'⟩ := List.infix_map_iff.1 hinfix
  exact ⟨phrase, hphrase, part', hpart', hsame'.symm.trans hletters⟩

end Search

section Classes

variable {text text' : String}

/-- A text betrays a wrong peer, or else a failing network, or else nothing. -/
theorem matchPhrases_cases (text : String) :
    (Betrays mismatchPhrases text ∧ matchPhrases text = .protocolMismatch) ∨
    (¬ Betrays mismatchPhrases text ∧ Betrays transientPhrases text ∧
      matchPhrases text = .transientNetwork) ∨
    (¬ Betrays mismatchPhrases text ∧ ¬ Betrays transientPhrases text ∧
      matchPhrases text = .unknown) := by
  rw [← mentions_mismatch_iff, ← mentions_transient_iff, matchPhrases]
  by_cases hmismatch : mentions mismatchPhrases text
  · exact .inl ⟨hmismatch, if_pos hmismatch⟩
  · by_cases htransient : mentions transientPhrases text
    · exact .inr (.inl ⟨hmismatch, htransient, by rw [if_neg hmismatch, if_pos htransient]⟩)
    · exact .inr (.inr ⟨hmismatch, htransient, by rw [if_neg hmismatch, if_neg htransient]⟩)

/-- A text that betrays a mismatch is one, whatever else it says. -/
theorem matchPhrases_eq_protocolMismatch_iff :
    matchPhrases text = .protocolMismatch ↔ Betrays mismatchPhrases text := by
  rcases matchPhrases_cases text with ⟨hmismatch, hclass⟩ | ⟨hmismatch, _, hclass⟩ |
    ⟨hmismatch, _, hclass⟩ <;> simp [hclass, hmismatch]

/-- A text is trouble with the network if it betrays that, and no mismatch. -/
theorem matchPhrases_eq_transientNetwork_iff : matchPhrases text = .transientNetwork ↔
    ¬ Betrays mismatchPhrases text ∧ Betrays transientPhrases text := by
  rcases matchPhrases_cases text with ⟨hmismatch, hclass⟩ | ⟨hmismatch, htransient, hclass⟩ |
    ⟨hmismatch, htransient, hclass⟩ <;> simp [*]

/-- A text that betrays neither says nothing. -/
theorem matchPhrases_eq_unknown_iff : matchPhrases text = .unknown ↔
    ¬ Betrays mismatchPhrases text ∧ ¬ Betrays transientPhrases text := by
  rcases matchPhrases_cases text with ⟨hmismatch, hclass⟩ | ⟨hmismatch, htransient, hclass⟩ |
    ⟨hmismatch, htransient, hclass⟩ <;> simp [*]

/-- No text betrays that a target is unusable. -/
theorem matchPhrases_ne_fatal (text : String) : matchPhrases text ≠ .fatal := by
  rcases matchPhrases_cases text with ⟨_, hclass⟩ | ⟨_, _, hclass⟩ | ⟨_, _, hclass⟩ <;>
    simp [hclass]

/-- A text that betrays whatever another betrays tells as much at least. -/
theorem rank_matchPhrases_le
    (hmismatch : Betrays mismatchPhrases text → Betrays mismatchPhrases text')
    (htransient : Betrays transientPhrases text → Betrays transientPhrases text') :
    (matchPhrases text).rank ≤ (matchPhrases text').rank := by
  rcases matchPhrases_cases text with ⟨h, hclass⟩ | ⟨_, h, hclass⟩ | ⟨_, _, hclass⟩
  · have hclass' := matchPhrases_eq_protocolMismatch_iff.2 (hmismatch h)
    exact Nat.le_of_eq (by rw [hclass, hclass'])
  · rcases matchPhrases_cases text' with ⟨_, hclass'⟩ | ⟨_, _, hclass'⟩ | ⟨_, h', _⟩
    · rw [hclass, hclass']
      decide
    · exact Nat.le_of_eq (by rw [hclass, hclass'])
    · exact absurd (htransient h) h'
  · rw [hclass]
    exact Nat.zero_le _

/-- No two classes have one rank. -/
theorem rank_injective {c c' : FailureClass} (h : c.rank = c'.rank) : c = c' := by
  cases c <;> cases c' <;> first | rfl | cases h

/-- The case of letters does not matter. -/
theorem matchPhrases_of_sameLetters (h : SameLetters text.toList text'.toList) :
    matchPhrases text = matchPhrases text' :=
  rank_injective (Nat.le_antisymm
    (rank_matchPhrases_le (·.of_sameLetters h) (·.of_sameLetters h))
    (rank_matchPhrases_le (·.of_sameLetters h.symm) (·.of_sameLetters h.symm)))

end Classes

namespace ConnectionError

variable {e : ConnectionError}

/-- Whether it is the text of an error that is to tell its class. -/
def IsOpen (e : ConnectionError) : Prop :=
  (∃ reason, e = .other reason) ∨ ∃ io, e = .io io ∧ io.kind ∉ transientKinds

/-- The class of an error that its text is to tell. -/
theorem classify_of_isOpen (h : e.IsOpen) : e.classify = matchPhrases e.message := by
  rcases h with ⟨reason, rfl⟩ | ⟨io, rfl, hkind⟩
  · rfl
  · exact if_neg fun hcontains => hkind (List.contains_iff_mem.1 hcontains)

/-- The class of an error that is not told by its text. -/
theorem classify_of_not_isOpen (h : ¬ e.IsOpen) : e.classify =
    match e with
    | .io _ => .transientNetwork
    | .invalidAddress _ => .fatal
    | _ => .protocolMismatch := by
  cases e with
  | io io =>
      have hkind : io.kind ∈ transientKinds :=
        Decidable.byContradiction fun hkind => h (.inr ⟨io, rfl, hkind⟩)
      exact if_pos (List.contains_iff_mem.2 hkind)
  | other reason => exact absurd (.inl ⟨reason, rfl⟩) h
  | identityMismatch | protocol | invalidAddress => rfl

/-- An error has no known class if its kind decides nothing, nor does its text. -/
theorem classify_eq_unknown_iff : e.classify = .unknown ↔
    e.IsOpen ∧ ¬ Betrays mismatchPhrases e.message ∧ ¬ Betrays transientPhrases e.message := by
  by_cases hopen : e.IsOpen
  · rw [classify_of_isOpen hopen, matchPhrases_eq_unknown_iff]
    simp [hopen]
  · rw [classify_of_not_isOpen hopen]
    cases e <;> simp [hopen]

/-- Only an address that is none is fatal. -/
theorem classify_eq_fatal_iff : e.classify = .fatal ↔ ∃ reason, e = .invalidAddress reason := by
  by_cases hopen : e.IsOpen
  · rw [classify_of_isOpen hopen]
    have hne := matchPhrases_ne_fatal e.message
    rcases hopen with ⟨reason, rfl⟩ | ⟨io, rfl, _⟩ <;> simp [hne]
  · rw [classify_of_not_isOpen hopen]
    cases e <;> simp

end ConnectionError

/-- **Phrases are found anywhere in a text, in either case.**  A text betrays a wrong peer
just if one of the phrases for that stands in it, letters of either case; else a failing
network, just if one of those phrases stands in it; else nothing.  So more text around a
text betrays as much at least, and the case of letters does not matter.  An error of a
connection has one class in both phases.  It is unknown just if it is one that its text is
to tell — of another sort, or of input and output but not of a kind that tells of the
network — and none of the phrases stands there; and it is fatal just if the address is
unusable. -/
theorem phrases_are_found_anywhere :
    (∀ text : String,
      (matchPhrases text = .protocolMismatch ↔ Betrays mismatchPhrases text) ∧
      (matchPhrases text = .transientNetwork ↔
        ¬ Betrays mismatchPhrases text ∧ Betrays transientPhrases text) ∧
      (matchPhrases text = .unknown ↔
        ¬ Betrays mismatchPhrases text ∧ ¬ Betrays transientPhrases text) ∧
      (∀ before after : String,
        (matchPhrases text).rank ≤ (matchPhrases (before ++ text ++ after)).rank) ∧
      ∀ text' : String, SameLetters text.toList text'.toList →
        matchPhrases text' = matchPhrases text) ∧
    ∀ e : ConnectionError,
      (ProbeError.connection .dial e).classify = (ProbeError.connection .ping e).classify ∧
      ((ProbeError.connection .dial e).classify = .unknown ↔
        ((∃ reason, e = .other reason) ∨ ∃ io, e = .io io ∧ io.kind ∉ transientKinds) ∧
          ¬ Betrays mismatchPhrases e.message ∧ ¬ Betrays transientPhrases e.message) ∧
      ((ProbeError.connection .dial e).classify = .fatal ↔
        ∃ reason, e = .invalidAddress reason) := by
  refine ⟨fun text => ⟨matchPhrases_eq_protocolMismatch_iff, matchPhrases_eq_transientNetwork_iff,
    matchPhrases_eq_unknown_iff, ?_, ?_⟩, fun e => ⟨rfl, ?_, ?_⟩⟩
  · intro before after
    exact rank_matchPhrases_le (·.append before after) (·.append before after)
  · intro text' hsame
    exact (matchPhrases_of_sameLetters hsame).symm
  · exact ConnectionError.classify_eq_unknown_iff
  · exact ConnectionError.classify_eq_fatal_iff

/-- Both tables have a phrase in this text, and the wrong peer is what it betrays. -/
example : matchPhrases "Connection RESET: Wrong Version" = .protocolMismatch := by decide

end PeerWatch
