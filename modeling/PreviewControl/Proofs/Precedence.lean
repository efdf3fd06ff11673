import Mathlib.Data.List.TakeWhile
import PreviewControl.Proofs.StoreLaws
import PreviewControl.Settings.Arguments

/-!
# Which text a setting takes

Every setting takes the value of its own flag, else that of its own variable, else the built-in one,
whatever else is given and in whatever order. What is not set at all is as in the standard
configuration.
-/
namespace PreviewControl

/-! ## What texts stand for -/

/-- The value of one setting. -/
inductive Setting where
  | text (value : String)
  | price (value : Binary64)
  | seconds (value : Nat)
  | switch (value : Bool)
  | absent

namespace Flag

/-- What a text stands for as the value of a flag; nothing if it cannot be read. -/
def meaning? (flag : Flag) (value : String) : Option Setting :=
  match flag with
  | cpuCoreHourPrice | memoryGbHourPrice => (price? value).map .price
  | requeueSeconds | cleanupSeconds => (seconds? value).map .seconds
  | watchGitops =>
    if value = "true" then some (.switch true)
    else if value = "false" then some (.switch false)
    else none
  | _ => some (.text value)

/-- The place of each setting: in the configuration or beside it. -/
def settingIn (config : Config) (watched : Bool) (endpoint : Option String) : Flag → Setting
  | baseDomain => .text config.baseDomain
  | controlNamespace => .text config.controlNamespace
  | gitopsNamespace => .text config.gitopsNamespace
  | gitopsProject => .text config.gitopsProject
  | destinationServer => .text config.destinationServer
  | clusterIssuer => .text config.clusterIssuer
  | ingressClass => .text config.ingressClass
  | ingressControllerNamespace => .text config.ingressControllerNamespace
  | frontendService => .text config.frontendService
  | cpuCoreHourPrice => .price config.cpuCoreHourPrice
  | memoryGbHourPrice => .price config.memoryGbHourPrice
  | requeueSeconds => .seconds config.requeueSeconds
  | cleanupSeconds => .seconds config.cleanupSeconds
  | watchGitops => .switch watched
  | otlpEndpoint => endpoint.elim .absent .text

/-- The setting of a flag if nothing is given: that of the standard configuration. -/
def standard (flag : Flag) : Setting := flag.settingIn {} false none

theorem mem_all (flag : Flag) : flag ∈ all := by cases flag <;> decide

theorem nodup_all : all.Nodup := by decide

/-- Every built-in text can be read, and it stands for the standard configuration. -/
theorem meaning_of_builtIn {flag : Flag} {value : String} (h : flag.builtIn? = some value) :
    flag.meaning? value = some flag.standard := by
  cases flag
  case otlpEndpoint => cases h
  all_goals
    cases h
    rfl

end Flag

namespace Settings

variable {given given' : List (Flag × String)} {vars vars' : List (String × String)}
  {flag : Flag} {value : String} {x : Setting} {s s' : Settings}

/-- The setting of a flag. -/
def get (s : Settings) (flag : Flag) : Setting :=
  flag.settingIn s.config s.watchGitops s.otlpEndpoint

/-- Setting a flag that can read the text changes its own setting and no other. -/
theorem set_of_meaning (h : flag.meaning? value = some x) (s : Settings) :
    ∃ s', flag.set value s = .ok s' ∧ s'.get flag = x ∧
      ∀ other, other ≠ flag → s'.get other = s.get other := by
  cases flag
  case cpuCoreHourPrice | memoryGbHourPrice | requeueSeconds | cleanupSeconds =>
    obtain ⟨read, hread, rfl⟩ := Option.map_eq_some_iff.1 h
    simp only [Flag.set, Flag.need, hread]
    refine ⟨_, rfl, rfl, fun other hne => ?_⟩
    cases other <;> first | rfl | exact absurd rfl hne
  case watchGitops =>
    have hchoice : value = "true" ∧ .switch true = x ∨ value = "false" ∧ .switch false = x := by
      rw [Flag.meaning?] at h
      split at h
      · next htrue => exact .inl ⟨htrue, Option.some.inj h⟩
      · split at h
        · next hfalse => exact .inr ⟨hfalse, Option.some.inj h⟩
        · cases h
    rcases hchoice with ⟨rfl, rfl⟩ | ⟨rfl, rfl⟩
    all_goals
      refine ⟨_, rfl, rfl, fun other hne => ?_⟩
      cases other <;> first | rfl | exact absurd rfl hne
  all_goals
    cases h
    refine ⟨_, rfl, rfl, fun other hne => ?_⟩
    cases other <;> first | rfl | exact absurd rfl hne

/-- What is set one after the other: every setting has the meaning of its own text. -/
theorem get_foldlM_take {flags : List Flag} (distinct : flags.Nodup)
    (readable : ∀ flag ∈ flags, ∀ value, textOf? given vars flag = some value →
      (flag.meaning? value).isSome) (s : Settings) :
    ∃ s', flags.foldlM (take given vars) s = .ok s' ∧ ∀ flag, s'.get flag =
      if flag ∈ flags then ((textOf? given vars flag).bind flag.meaning?).getD (s.get flag)
      else s.get flag := by
  induction flags generalizing s with
  | nil => exact ⟨s, rfl, fun flag => rfl⟩
  | cons first flags ih =>
    obtain ⟨hfirst, hflags⟩ := List.nodup_cons.1 distinct
    have hrest := fun flag h => readable flag (List.mem_cons_of_mem first h)
    obtain ⟨mid, hmid, hown, hothers⟩ : ∃ mid, take given vars s first = .ok mid ∧
        mid.get first = ((textOf? given vars first).bind first.meaning?).getD (s.get first) ∧
        ∀ other, other ≠ first → mid.get other = s.get other := by
      unfold take
      cases htext : textOf? given vars first with
      | none => exact ⟨s, rfl, rfl, fun _ _ => rfl⟩
      | some value =>
        obtain ⟨x, hx⟩ := Option.isSome_iff_exists.1 (readable first List.mem_cons_self value htext)
        obtain ⟨mid, hmid, hown, hothers⟩ := set_of_meaning hx s
        exact ⟨mid, hmid, by rw [hown, Option.bind_some, hx, Option.getD_some], hothers⟩
    obtain ⟨s', hs', hget⟩ := ih hflags hrest mid
    refine ⟨s', ?_, fun flag => ?_⟩
    · rw [List.foldlM_cons, hmid]
      exact hs'
    · rw [hget]
      by_cases hflag : flag = first
      · rw [hflag, if_neg hfirst, if_pos List.mem_cons_self, hown]
      · rw [hothers flag hflag]
        simp only [List.mem_cons, hflag, false_or]

/-- Every setting has the meaning of its own text. -/
structure Follow (given : List (Flag × String)) (vars : List (String × String)) (s : Settings) :
    Prop where
  meaning : ∀ flag value, textOf? given vars flag = some value →
    flag.meaning? value = some (s.get flag)
  missing : ∀ flag, textOf? given vars flag = none → s.get flag = flag.standard

/-- Nothing but its own text matters to a setting. -/
theorem Follow.get_congr (h : Follow given vars s) (h' : Follow given' vars' s')
    (same : textOf? given' vars' flag = textOf? given vars flag) : s'.get flag = s.get flag := by
  cases htext : textOf? given vars flag with
  | some value =>
    have hmeaning := h.meaning flag value htext
    rw [h'.meaning flag value (same.trans htext)] at hmeaning
    exact Option.some.inj hmeaning
  | none => rw [h.missing flag htext, h'.missing flag (same.trans htext)]

theorem resolve_of_readable (readable : ∀ flag value, textOf? given vars flag = some value →
    (flag.meaning? value).isSome) : ∃ s, resolve given vars = .ok s ∧ Follow given vars s := by
  obtain ⟨s, hs, hget⟩ := get_foldlM_take Flag.nodup_all (fun flag _ => readable flag) default
  refine ⟨s, hs, fun flag value htext => ?_, fun flag htext => ?_⟩
  · obtain ⟨x, hx⟩ := Option.isSome_iff_exists.1 (readable flag value htext)
    rw [hget, if_pos (Flag.mem_all flag), htext, Option.bind_some, hx, Option.getD_some]
  · rw [hget, if_pos (Flag.mem_all flag), htext, Option.bind_none, Option.getD_none]
    -- Of the built-in texts only that of the endpoint is missing.
    have hbuiltIn : flag.builtIn? = none := by
      simp only [textOf?, Option.orElse_eq_orElse, Option.orElse_eq_or, Option.or_eq_none_iff]
        at htext
      exact htext.2.2
    cases flag
    case otlpEndpoint => rfl
    all_goals cases hbuiltIn

theorem resolve_congr (same : ∀ flag, textOf? given' vars' flag = textOf? given vars flag) :
    resolve given' vars' = resolve given vars := by
  have htake : take given' vars' = take given vars := by
    funext s flag
    rw [take, take, same]
  rw [resolve, resolve, htake]

/-! ### The source of a text -/

theorem textOf?_of_mem (distinct : (given.map Prod.fst).Nodup) (mem : (flag, value) ∈ given) :
    textOf? given vars flag = some value := by
  rw [textOf?, lookup_of_mem distinct mem]
  rfl

theorem textOf?_of_not_mem (absent : flag ∉ given.map Prod.fst) :
    textOf? given vars flag = (vars.lookup flag.variable).or flag.builtIn? := by
  rw [textOf?, lookup_of_not_mem absent]
  cases vars.lookup flag.variable <;> rfl

/-- The order in which flags are given plays no part. -/
theorem textOf?_perm (perm : given.Perm given') (distinct : (given.map Prod.fst).Nodup)
    (flag : Flag) : textOf? given' vars flag = textOf? given vars flag := by
  have hkeys := perm.map Prod.fst
  by_cases hflag : flag ∈ given.map Prod.fst
  · obtain ⟨g, hg, rfl⟩ := List.mem_map.1 hflag
    rw [textOf?_of_mem distinct hg, textOf?_of_mem (hkeys.nodup distinct) (perm.mem_iff.1 hg)]
  · rw [textOf?_of_not_mem hflag, textOf?_of_not_mem (mt hkeys.mem_iff.2 hflag)]

end Settings

/-! ## Words -/

namespace Arguments

variable {given gs : List (Flag × String)} {words rest : List String} {flag : Flag}
  {value word : String} {s s' : State} {cs : List Char}

/-- The words that give a flag a value: the switch stands alone, and the value of any other flag
follows an equals sign or is the next word, which must not look like a flag then. -/
inductive Spells : Flag × String → List String → Prop where
  | switch : Spells (.watchGitops, "true") ["--watch-gitops"]
  | joined {flag : Flag} (value : String) (valued : flag.isSwitch = false) :
    Spells (flag, value) ["--" ++ flag.name ++ "=" ++ value]
  | apart {flag : Flag} {value : String} (valued : flag.isSwitch = false)
      (plain : value.toList.head? ≠ some '-' ∨ value = "-") :
    Spells (flag, value) ["--" ++ flag.name, value]

/-- The words that give several flags their values, one after the other. -/
inductive Spelled : List (Flag × String) → List String → Prop where
  | nil : Spelled [] []
  | cons {g : Flag × String} {gs : List (Flag × String)} {words rest : List String}
      (first : Spells g words) (others : Spelled gs rest) : Spelled (g :: gs) (words ++ rest)

theorem ofName?_name (flag : Flag) : Flag.ofName? flag.name = some flag := by
  cases flag <;> decide +kernel

theorem no_equals_sign (flag : Flag) : ∀ c ∈ flag.name.toList, (c != '=') = true := by
  have hall : flag.name.toList.all (· != '=') = true := by cases flag <;> decide +kernel
  exact List.all_eq_true.1 hall

theorem name_ne_nil (flag : Flag) : flag.name.toList ≠ [] := by
  cases flag <;> decide

theorem readFrom_long (hword : word.toList = '-' :: '-' :: cs) (hcs : cs ≠ []) :
    readFrom s (word :: rest) = (readLong s word cs).bind fun s => readFrom s rest := by
  obtain ⟨c, cs, rfl⟩ := List.exists_cons_of_ne_nil hcs
  rw [readFrom.eq_def]
  simp only [hword]

theorem readFrom_value (plain : word.toList.head? ≠ some '-' ∨ word = "-") :
    readFrom s (word :: rest) = (readValue s word).bind fun s => readFrom s rest := by
  rcases plain with plain | rfl
  · rw [readFrom.eq_def]
    cases hword : word.toList with
    | nil => simp only [hword]
    | cons c cs =>
      have hc : c ≠ '-' := by simpa [hword] using plain
      simp only [hword]
      split <;> simp_all
  · rfl

theorem readLong_joined (valued : flag.isSwitch = false) :
    readLong s word (flag.name.toList ++ '=' :: value.toList) = whole s flag value := by
  have hname : (flag.name.toList ++ '=' :: value.toList).takeWhile (· != '=') =
      flag.name.toList := by
    rw [List.takeWhile_append_of_pos (no_equals_sign flag)]
    exact List.append_nil _
  have hvalue : (flag.name.toList ++ '=' :: value.toList).dropWhile (· != '=') =
      '=' :: value.toList := List.dropWhile_append_of_pos (no_equals_sign flag)
  simp only [readLong, hname, hvalue, String.ofList_toList, ofName?_name, valued]
  rfl

theorem readLong_alone : readLong s word flag.name.toList =
    if flag.isSwitch then whole s flag "true" else start s flag := by
  have hname := List.takeWhile_eq_self_iff.2 (no_equals_sign flag)
  have hvalue := List.dropWhile_eq_nil_iff.2 (no_equals_sign flag)
  simp only [readLong, hname, hvalue, String.ofList_toList, ofName?_name]

theorem enter_of_readable (new : flag ∉ given.map Prod.fst)
    (readable : (flag.meaning? value).isSome) :
    enter given flag value = .ok (given ++ [(flag, value)]) := by
  obtain ⟨x, hx⟩ := Option.isSome_iff_exists.1 readable
  obtain ⟨_, hset, _⟩ := Settings.set_of_meaning hx default
  rw [enter, lookup_of_not_mem new, hset]
  rfl

/-- The words of one more flag enter it, at once or when the next flag begins. -/
theorem readFrom_spells (settled : settle s = .ok given) (spells : Spells (flag, value) words)
    (new : flag ∉ given.map Prod.fst) (readable : (flag.meaning? value).isSome) :
    ∃ s', settle s' = .ok (given ++ [(flag, value)]) ∧
      ∀ rest, readFrom s (words ++ rest) = readFrom s' rest := by
  have henter := enter_of_readable new readable
  have hwhole : whole s flag value = .ok ⟨given ++ [(flag, value)], none⟩ := by
    rw [whole, settled]
    exact congrArg (Except.map _) henter
  cases spells with
  | switch =>
    refine ⟨⟨given ++ [(.watchGitops, "true")], none⟩, rfl, fun rest => ?_⟩
    rw [List.singleton_append, readFrom_long rfl (name_ne_nil .watchGitops), readLong_alone]
    exact congrArg (Except.bind · _) hwhole
  | joined value valued =>
    refine ⟨⟨given ++ [(flag, value)], none⟩, rfl, fun rest => ?_⟩
    have hword : ("--" ++ flag.name ++ "=" ++ value).toList =
        '-' :: '-' :: (flag.name.toList ++ '=' :: value.toList) := by
      simp [String.toList_append]
    rw [List.singleton_append, readFrom_long hword (by simp), readLong_joined valued, hwhole]
    rfl
  | apart valued plain =>
    refine ⟨⟨given, some ⟨flag, some value⟩⟩, henter, fun rest => ?_⟩
    have hword : ("--" ++ flag.name).toList = '-' :: '-' :: flag.name.toList := by
      simp [String.toList_append]
    rw [List.cons_append, List.singleton_append, readFrom_long hword (name_ne_nil flag),
      readLong_alone, valued, start, settled]
    exact readFrom_value plain

theorem readFrom_spelled (spelled : Spelled gs words) (settled : settle s = .ok given)
    (distinct : ((given ++ gs).map Prod.fst).Nodup)
    (readable : ∀ g ∈ gs, (g.1.meaning? g.2).isSome) : readFrom s words = .ok (given ++ gs) := by
  induction spelled generalizing s given with
  | nil => rw [readFrom, settled, List.append_nil]
  | @cons g gs words rest first others ih =>
    have hsplit : given ++ g :: gs = given ++ [g] ++ gs := by simp
    have hnew : g.1 ∉ given.map Prod.fst := by
      rw [List.map_append, List.nodup_append] at distinct
      exact fun hg => distinct.2.2 g.1 hg g.1 (by simp) rfl
    obtain ⟨s', hs', hread⟩ := readFrom_spells settled first hnew (readable g List.mem_cons_self)
    rw [hsplit] at distinct ⊢
    rw [hread, ih hs' distinct fun g hg => readable g (List.mem_cons_of_mem _ hg)]

/-- A command line that gives flags their values, in an environment: no flag is given twice, all
values can be read, and so can the variables for which no flag is given. -/
structure Invocation (given : List (Flag × String)) (words : List String)
    (vars : List (String × String)) : Prop where
  distinct : (given.map Prod.fst).Nodup
  readable : ∀ g ∈ given, (g.1.meaning? g.2).isSome
  spelled : Spelled given words
  sound : ∀ flag, flag ∉ given.map Prod.fst → ∀ value, vars.lookup flag.variable = some value →
    (flag.meaning? value).isSome

variable {vars : List (String × String)}

theorem Invocation.read_eq (h : Invocation given words vars) : read words = .ok given := by
  have hstart : settle {} = .ok [] := rfl
  exact readFrom_spelled h.spelled hstart h.distinct h.readable

theorem Invocation.readable_text (h : Invocation given words vars) (flag : Flag) (value : String)
    (text : Settings.textOf? given vars flag = some value) : (flag.meaning? value).isSome := by
  by_cases hflag : flag ∈ given.map Prod.fst
  · obtain ⟨g, hg, rfl⟩ := List.mem_map.1 hflag
    rw [Settings.textOf?_of_mem h.distinct hg] at text
    cases text
    exact h.readable g hg
  · rw [Settings.textOf?_of_not_mem hflag] at text
    rcases Option.or_eq_some_iff.1 text with hvar | ⟨_, hbuiltIn⟩
    · exact h.sound flag hflag value hvar
    · rw [Flag.meaning_of_builtIn hbuiltIn]
      rfl

theorem Invocation.settings_eq (h : Invocation given words vars) :
    settings words vars = Settings.resolve given vars := by
  rw [settings, h.read_eq]
  rfl

/-- Every setting has the value of its own flag if that is given, else of its own variable if that
is set, else the value of the standard configuration, and what has no flag is as there. So what is
given or set for other flags does not matter to a setting, and neither does the order. -/
theorem own_source_decides (inv : Invocation given words vars) :
    ∃ s, settings words vars = .ok s ∧
      (∀ flag value, (flag, value) ∈ given → flag.meaning? value = some (s.get flag)) ∧
      (∀ flag value, flag ∉ given.map Prod.fst → vars.lookup flag.variable = some value →
        flag.meaning? value = some (s.get flag)) ∧
      (∀ flag, flag ∉ given.map Prod.fst → vars.lookup flag.variable = none →
        s.get flag = flag.standard) ∧
      (s.config.servicePort = ({} : Config).servicePort ∧
        s.config.defaultQuotaCpu = ({} : Config).defaultQuotaCpu ∧
        s.config.defaultQuotaMemory = ({} : Config).defaultQuotaMemory ∧
        s.config.defaultQuotaPods = ({} : Config).defaultQuotaPods) ∧
      (∀ given' words' vars' s', Invocation given' words' vars' →
        settings words' vars' = .ok s' → ∀ flag, given'.lookup flag = given.lookup flag →
          (given.lookup flag = none →
            vars'.lookup flag.variable = vars.lookup flag.variable) →
          s'.get flag = s.get flag) ∧
      ∀ given' words', given.Perm given' → Spelled given' words' →
        settings words' vars = .ok s := by
  obtain ⟨s, hs, follow⟩ := Settings.resolve_of_readable inv.readable_text
  refine ⟨s, inv.settings_eq.trans hs, fun flag value hg => ?_, fun flag value hflag hvar => ?_,
    fun flag hflag hvar => ?_, ⟨rfl, rfl, rfl, rfl⟩,
    fun given' words' vars' s' inv' hs' flag hgiven hvars => ?_,
    fun given' words' perm spelled => ?_⟩
  · exact follow.meaning flag value (Settings.textOf?_of_mem inv.distinct hg)
  · refine follow.meaning flag value ?_
    rw [Settings.textOf?_of_not_mem hflag, hvar, Option.some_or]
  · have htext : Settings.textOf? given vars flag = flag.builtIn? := by
      rw [Settings.textOf?_of_not_mem hflag, hvar, Option.none_or]
    cases hbuiltIn : flag.builtIn? with
    | none => exact follow.missing flag (htext.trans hbuiltIn)
    | some value =>
      have hmeaning := follow.meaning flag value (htext.trans hbuiltIn)
      rw [Flag.meaning_of_builtIn hbuiltIn] at hmeaning
      exact (Option.some.inj hmeaning).symm
  · obtain ⟨t, ht, follow'⟩ := Settings.resolve_of_readable inv'.readable_text
    obtain rfl : t = s' := Except.ok.inj (ht.symm.trans (inv'.settings_eq.symm.trans hs'))
    refine follow.get_congr follow' ?_
    rw [Settings.textOf?, Settings.textOf?, hgiven]
    cases hflag : given.lookup flag with
    | some value => rfl
    | none => rw [hvars hflag]
  · have inv' : Invocation given' words' vars := by
      have hkeys := perm.map Prod.fst
      exact ⟨hkeys.nodup inv.distinct, fun g hg => inv.readable g (perm.mem_iff.2 hg), spelled,
        fun flag hflag => inv.sound flag (mt hkeys.mem_iff.1 hflag)⟩
    rw [inv'.settings_eq, Settings.resolve_congr (Settings.textOf?_perm perm inv.distinct), hs]

/-- A command line that overrides a variable which cannot be read. -/
theorem own_source_decides_overridden :
    ∃ s, settings ["--watch-gitops", "--cpu-core-hour-price", "1e-3", "--base-domain="]
        [("PREVIEW_CPU_CORE_HOUR_PRICE", "dear"), ("PREVIEW_REQUEUE_INTERVAL_SECS", "+60"),
          ("PREVIEW_WATCH_GITOPS", "false")] = .ok s ∧
      s.watchGitops = true ∧ s.config.baseDomain = "" ∧
      s.config.cpuCoreHourPrice = .ofRatio false 1 1000 ∧
      s.config.memoryGbHourPrice = ({} : Config).memoryGbHourPrice ∧
      s.config.requeueSeconds = 60 ∧ s.config.cleanupSeconds = 300 := by
  have inv : Invocation
      [(.watchGitops, "true"), (.cpuCoreHourPrice, "1e-3"), (.baseDomain, "")]
      ["--watch-gitops", "--cpu-core-hour-price", "1e-3", "--base-domain="]
      [("PREVIEW_CPU_CORE_HOUR_PRICE", "dear"), ("PREVIEW_REQUEUE_INTERVAL_SECS", "+60"),
        ("PREVIEW_WATCH_GITOPS", "false")] := by
    refine ⟨by decide, by decide, .cons .switch (.cons (.apart rfl (.inl (by decide)))
      (.cons (.joined "" rfl) .nil)), fun flag hflag value hvar => ?_⟩
    cases flag
    case requeueSeconds =>
      obtain rfl := Option.some.inj hvar
      rfl
    case watchGitops | cpuCoreHourPrice | baseDomain => exact absurd hflag (by decide)
    all_goals cases hvar
  obtain ⟨s, hs, hflags, hvars, hunset, _⟩ := own_source_decides inv
  have hwatch := hflags .watchGitops "true" (by decide)
  have hdomain := hflags .baseDomain "" (by decide)
  have hprice := hflags .cpuCoreHourPrice "1e-3" (by decide)
  have hrequeue := hvars .requeueSeconds "+60" (by decide) rfl
  have hmemory := hunset .memoryGbHourPrice (by decide) rfl
  have hcleanup := hunset .cleanupSeconds (by decide) rfl
  exact ⟨s, hs, (Setting.switch.inj (Option.some.inj hwatch)).symm,
    (Setting.text.inj (Option.some.inj hdomain)).symm,
    (Setting.price.inj (Option.some.inj hprice)).symm, Setting.price.inj hmemory,
    (Setting.seconds.inj (Option.some.inj hrequeue)).symm, Setting.seconds.inj hcleanup⟩

end Arguments
end PreviewControl
