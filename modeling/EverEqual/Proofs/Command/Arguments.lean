import EverEqual.Command.Config
import EverEqual.Proofs.Text.Integer
import Mathlib.Data.List.DropRight
import Mathlib.Data.List.Forall2

/-!
# Arguments in normal form

A configuration that some arguments ask for can be written as arguments again: every setting by its
long name with the value after an equals sign, and then the pairs. These arguments ask for the same
configuration, whatever texts it holds: the first equals sign ends the name of a flag, the next one
ends the left side of a pair, which has none itself, and what was trimmed is not trimmed any more.

* `Text.trim_trim`: trimmed texts stay as they are;
* `Flag.argument`, `Settings.readAll_argument`: a flag with its value as one argument;
* `Settings.readAll_keeps`: what every flag keeps up, a list of arguments keeps up;
* `Config.Normal`, `Config.toArgs`: what is true of a configuration, and its arguments;
* `Config.ofArgs_toArgs`: the arguments of a configuration ask for it;
* `arguments_normal`: both, for any list of arguments.
-/

namespace EverEqual

/-! ### Steps that can fail -/

section Steps

variable {α β ε : Type} {x : Except ε α} {f : α → Except ε β}

theorem bind_eq_ok_iff {b : β} : (x >>= f) = .ok b ↔ ∃ a, x = .ok a ∧ f a = .ok b := by
  cases x <;> simp [bind, Except.bind]

theorem mapM_eq_ok_iff {xs : List α} {ys : List β} :
    xs.mapM f = .ok ys ↔ List.Forall₂ (fun x y => f x = .ok y) xs ys := by
  induction xs generalizing ys with
  | nil => exact ⟨fun h => Except.ok.inj h ▸ .nil, fun h => by cases h; rfl⟩
  | cons x xs ih =>
    rw [List.mapM_cons, List.forall₂_cons_left_iff, bind_eq_ok_iff]
    constructor
    · rintro ⟨y, hy, h⟩
      obtain ⟨zs, hzs, h⟩ := bind_eq_ok_iff.1 h
      exact ⟨y, zs, hy, ih.1 hzs, (Except.ok.inj h).symm⟩
    · rintro ⟨y, zs, hy, hzs, rfl⟩
      exact ⟨y, hy, bind_eq_ok_iff.2 ⟨zs, ih.2 hzs, rfl⟩⟩

end Steps

/-! ### Trimmed texts -/

namespace Text

theorem trimList_eq (cs : List Char) :
    trimList cs = (cs.dropWhile isBlank).rdropWhile isBlank := rfl

theorem dropWhile_rdropWhile {cs : List Char} (h : cs.dropWhile isBlank = cs) :
    (cs.rdropWhile isBlank).dropWhile isBlank = cs.rdropWhile isBlank := by
  have hcut : cs.rdropWhile isBlank <+: cs := List.rdropWhile_prefix isBlank cs
  rw [List.dropWhile_eq_self_iff] at h ⊢
  intro hpos
  rw [hcut.getElem hpos]
  exact h (hpos.trans_le hcut.length_le)

theorem trimList_trimList (cs : List Char) : trimList (trimList cs) = trimList cs := by
  have hfront : (trimList cs).dropWhile isBlank = trimList cs :=
    dropWhile_rdropWhile (List.dropWhile_idempotent isBlank cs)
  rw [trimList_eq (trimList cs), hfront, trimList_eq, List.rdropWhile_idempotent]

/-- **Trimmed texts stay as they are.** -/
theorem trim_trim (s : String) : trim (trim s) = trim s := by
  simp only [trim, String.toList_ofList, trimList_trimList]

theorem mem_of_mem_trim {c : Char} {s : String} (h : c ∈ (trim s).toList) : c ∈ s.toList := by
  rw [trim, String.toList_ofList, trimList_eq] at h
  exact (List.dropWhile_sublist isBlank).subset ((List.rdropWhile_prefix isBlank _).subset h)

end Text

/-! ### Flags with their values -/

namespace Flag

/-- A flag with its value as one argument. -/
def argument (f : Flag) (value : String) : String :=
  "--" ++ f.long ++ "=" ++ value

theorem ofLong?_long (f : Flag) : ofLong? f.long = some f := by
  cases f <;> decide

/-- The long name of a flag is a word: it begins with a letter and has no equals sign. -/
theorem long_cases (f : Flag) :
    ∃ c cs, f.long.toList = c :: cs ∧ c ≠ '-' ∧ c ≠ '=' ∧ ∀ d ∈ f.long.toList, d ≠ '=' := by
  have hplain : ∀ d ∈ f.long.toList, d ≠ '=' := by
    have hall : f.long.toList.all (· != '=') = true := by cases f <;> decide
    simpa using hall
  cases f <;> exact ⟨_, _, rfl, by decide, by decide, hplain⟩

theorem toList_argument (f : Flag) (value : String) :
    (f.argument value).toList = '-' :: '-' :: (f.long.toList ++ '=' :: value.toList) := by
  simp [argument, String.toList_append]

end Flag

namespace Settings

variable {s s' : Settings} {f : Flag} {value arg : String} {rest : List String}

theorem readLong_value (s : Settings) (f : Flag) (arg value : String) (next : Option String) :
    s.readLong arg (f.long.toList ++ '=' :: value.toList) next =
      (s.assign f value).map (·, false) := by
  obtain ⟨c, cs, hlong, hdash, hequals, hno⟩ := f.long_cases
  have htake : (f.long.toList ++ '=' :: value.toList).takeWhile (· ≠ '=') = f.long.toList := by
    rw [List.takeWhile_append_of_pos (by simpa using hno)]
    simp
  have hdrop : (f.long.toList ++ '=' :: value.toList).dropWhile (· ≠ '=') = '=' :: value.toList := by
    rw [List.dropWhile_append_of_pos (by simpa using hno)]
    simp
  unfold readLong
  split
  · next h => simp [hlong] at h
  · next h => simp [hlong, hdash] at h
  · next h => simp [hlong, hequals] at h
  · simp only [htake, hdrop, String.ofList_toList, Flag.ofLong?_long]
    cases s.assign f value <;> rfl

theorem readOne_argument (s : Settings) (f : Flag) (value : String) (next : Option String) :
    s.readOne (f.argument value) next = (s.assign f value).map (·, false) := by
  simp only [readOne, Flag.toList_argument, readLong_value]

/-- **An argument for a flag, and then the rest.** -/
theorem readAll_argument (s : Settings) (f : Flag) (value : String) (rest : List String) :
    s.readAll (f.argument value :: rest) = (s.assign f value).bind (·.readAll rest) := by
  have hno : f.argument value ≠ "--" := by
    intro h
    have hlist := congrArg String.toList h
    rw [Flag.toList_argument] at hlist
    simp at hlist
  cases rest with
  | nil =>
    rw [readAll.eq_3 _ _ hno, readOne_argument]
    cases s.assign f value <;> rfl
  | cons next rest =>
    rw [readAll.eq_4 _ _ _ _ hno, readOne_argument]
    cases s.assign f value <;> rfl

/-! ### What a list of arguments keeps up -/

/-- A property of settings that every flag keeps up, whatever its value. -/
def Kept (P : Settings → Prop) : Prop :=
  ∀ ⦃s s' : Settings⦄ ⦃f : Flag⦄ ⦃value : String⦄, s.assign f value = .ok s' → P s → P s'

variable {P : Settings → Prop} {taken : Bool} {next : Option String}

theorem Kept.assign_map (hP : Kept P) (b : Bool)
    (h : (return (← s.assign f value, b) : Except FlagError (Settings × Bool)) = .ok (s', taken))
    (hs : P s) : P s' := by
  cases hassign : s.assign f value with
  | error e =>
    rw [hassign] at h
    cases h
  | ok s₁ =>
    rw [hassign] at h
    cases h
    exact hP hassign hs

theorem Kept.readLong (hP : Kept P) {cs : List Char}
    (h : s.readLong arg cs next = .ok (s', taken)) (hs : P s) : P s' := by
  unfold Settings.readLong at h
  split at h
  · cases h
  · cases h
  · cases h
  · dsimp only at h
    split at h
    · cases h
    · split at h
      · exact hP.assign_map _ h hs
      · split at h
        · exact hP.assign_map _ h hs
        · split at h
          · exact hP.assign_map _ h hs
          · cases h

theorem Kept.readShort (hP : Kept P) {cs : List Char}
    (h : s.readShort next cs = .ok (s', taken)) (hs : P s) : P s' := by
  induction cs generalizing s with
  | nil =>
    cases h
    exact hs
  | cons c cs ih =>
    unfold Settings.readShort at h
    split at h
    · cases h
      exact hs
    split at h
    · cases h
    split at h
    · exact hP.assign_map _ h hs
    split at h
    · next flag _ _ _ _ =>
      cases hassign : s.assign flag "true" with
      | error e =>
        rw [hassign] at h
        cases h
      | ok s₁ =>
        rw [hassign] at h
        exact ih h (hP hassign hs)
    split at h
    · exact hP.assign_map _ h hs
    · exact hP.assign_map _ h hs
    · cases h

theorem Kept.readOne (hP : Kept P) (h : s.readOne arg next = .ok (s', taken)) (hs : P s) : P s' := by
  unfold Settings.readOne at h
  split at h
  · exact hP.readLong h hs
  · exact hP.readShort h hs
  · cases h
    exact hs

/-- **What every flag keeps up, a list of arguments keeps up.** -/
theorem readAll_keeps (hP : Kept P) {args : List String} (h : s.readAll args = .ok s')
    (hs : P s) : P s' := by
  fun_induction Settings.readAll s args with
  | case1 => cases h; exact hs
  | case2 => cases h; exact hs
  | case3 s arg hno =>
    cases hone : s.readOne arg none with
    | error e =>
      rw [hone] at h
      cases h
    | ok p =>
      rw [hone] at h
      cases h
      exact hP.readOne hone hs
  | case4 s arg next rest hno ih₁ ih₂ =>
    cases hone : s.readOne arg (some next) with
    | error e =>
      rw [hone] at h
      cases h
    | ok p =>
      obtain ⟨s₁, taken⟩ := p
      rw [hone] at h
      have hs₁ := hP.readOne hone hs
      cases taken with
      | true => exact ih₁ s₁ h hs₁
      | false => exact ih₂ s₁ h hs₁

theorem kept_jobs : Kept (·.jobs < Text.signedBound) := by
  intro s s' f value h hs
  cases f with
  | jobs =>
    simp only [assign] at h
    cases hread : Text.readInt value with
    | error e =>
      rw [hread] at h
      cases h
    | ok n =>
      rw [hread] at h
      cases h
      exact Text.lt_of_readInt hread
  | pkg | pair | leftPkg | rightPkg | output => cases h; exact hs
  | directional | noColor | version =>
    simp only [assign] at h
    cases hread : readSwitch? value with
    | none =>
      rw [hread] at h
      cases h
    | some b =>
      rw [hread] at h
      cases h
      exact hs

end Settings

/-! ### Pairs -/

/-- What is true of the two sides of a pair: both are trimmed and not empty, and the left one has no
equals sign. -/
structure NormalPair (p : String × String) : Prop where
  left_trimmed : Text.trim p.1 = p.1
  left_ne : p.1 ≠ ""
  left_plain : '=' ∉ p.1.toList
  right_trimmed : Text.trim p.2 = p.2
  right_ne : p.2 ≠ ""

/-- A pair as it is written. -/
def joinPair (p : String × String) : String :=
  p.1 ++ "=" ++ p.2

theorem normalPair_of_splitPair {text : String} {p : String × String}
    (h : splitPair text = .ok p) : NormalPair p := by
  unfold splitPair at h
  dsimp only at h
  split at h
  · cases h
  split at h
  · cases h
  next hsides =>
  obtain rfl := Except.ok.inj h
  simp only [Bool.or_eq_true, decide_eq_true_eq, not_or] at hsides
  refine ⟨Text.trim_trim _, hsides.1, ?_, Text.trim_trim _, hsides.2⟩
  intro hmem
  have hbefore := Text.mem_of_mem_trim hmem
  rw [String.toList_ofList] at hbefore
  simpa using List.mem_takeWhile_imp hbefore

/-- **A pair in normal form is split where it was joined.** -/
theorem splitPair_joinPair {p : String × String} (hp : NormalPair p) :
    splitPair (joinPair p) = .ok p := by
  have hlist : (joinPair p).toList = p.1.toList ++ '=' :: p.2.toList := by
    simp [joinPair, String.toList_append]
  have hplain : ∀ d ∈ p.1.toList, d ≠ '=' := fun d hd h => hp.left_plain (h ▸ hd)
  have htake : (p.1.toList ++ '=' :: p.2.toList).takeWhile (· ≠ '=') = p.1.toList := by
    rw [List.takeWhile_append_of_pos (by simpa using hplain)]
    simp
  have hdrop : (p.1.toList ++ '=' :: p.2.toList).dropWhile (· ≠ '=') = '=' :: p.2.toList := by
    rw [List.dropWhile_append_of_pos (by simpa using hplain)]
    simp
  simp only [splitPair, hlist, htake, hdrop, String.ofList_toList, hp.left_trimmed,
    hp.right_trimmed, hp.left_ne, hp.right_ne, decide_false, Bool.or_self, Bool.false_eq_true,
    if_false]

theorem mapM_splitPair {pairs : List (String × String)} (h : ∀ p ∈ pairs, NormalPair p) :
    (pairs.map joinPair).mapM splitPair = .ok pairs :=
  mapM_eq_ok_iff.2 (List.forall₂_map_left_iff.2
    (List.forall₂_same.2 fun p hp => splitPair_joinPair (h p hp)))

theorem normalPair_of_mapM {texts : List String} {pairs : List (String × String)}
    (h : texts.mapM splitPair = .ok pairs) : ∀ p ∈ pairs, NormalPair p := by
  induction mapM_eq_ok_iff.1 h with
  | nil => simp
  | cons hfirst hrest ih =>
    exact List.forall_mem_cons.2 ⟨normalPair_of_splitPair hfirst, ih (mapM_eq_ok_iff.2 hrest)⟩

/-! ### Configurations -/

namespace Config

variable {c : Config} {args : List String}

/-- What is true of every configuration that does not ask for the version. -/
structure Normal (c : Config) : Prop where
  pairs : ∀ p ∈ c.pairs, NormalPair p
  asks : c.pairs ≠ [] ∨ c.leftPkg ≠ "" ∧ c.rightPkg ≠ ""
  left_trimmed : Text.trim c.leftPkg = c.leftPkg
  right_trimmed : Text.trim c.rightPkg = c.rightPkg
  together : c.leftPkg = "" ↔ c.rightPkg = ""
  pkg : Text.trim c.pkg ≠ ""
  jobs : 0 ≤ c.jobs

/-- A configuration as arguments: every setting by its name, then the pairs in order. -/
def toArgs (c : Config) : List String :=
  [Flag.pkg.argument c.pkg, Flag.leftPkg.argument c.leftPkg, Flag.rightPkg.argument c.rightPkg,
    Flag.jobs.argument (toString c.jobs), Flag.directional.argument (toString c.directional),
    Flag.output.argument c.output, Flag.noColor.argument (toString c.noColor)] ++
    c.pairs.map fun p => Flag.pair.argument (joinPair p)

theorem objection?_eq_none {s : Settings} {pairs : List (String × String)}
    (hpairs : ∀ p ∈ pairs, NormalPair p) :
    (ofPairs s pairs).objection? = none ↔ (ofPairs s pairs).Normal := by
  have hleft : Text.trim (ofPairs s pairs).leftPkg = (ofPairs s pairs).leftPkg := Text.trim_trim _
  have hright : Text.trim (ofPairs s pairs).rightPkg = (ofPairs s pairs).rightPkg :=
    Text.trim_trim _
  have hsame : (ofPairs s pairs).pairs = pairs := rfl
  generalize ofPairs s pairs = c at hleft hright hsame ⊢
  subst hsame
  constructor
  · intro h
    unfold objection? at h
    split_ifs at h with htogether hasks hpkg hjobs
    refine ⟨hpairs, ?_, hleft, hright, by simpa using htogether, hpkg, Int.not_lt.1 hjobs⟩
    simpa [audit, or_iff_not_imp_left] using hasks
  · intro h
    unfold objection?
    rw [if_neg (by simpa using h.together), if_neg, if_neg h.pkg, if_neg (Int.not_lt.2 h.jobs)]
    simpa [audit, or_iff_not_imp_left] using h.asks

theorem ofSettings_eq_ok {s : Settings} (hv : c.showVersion = false) :
    ofSettings s = .ok c ↔
      s.version = false ∧
        ∃ pairs, s.pairs.mapM splitPair = .ok pairs ∧ ofPairs s pairs = c ∧
          c.objection? = none := by
  unfold ofSettings
  split
  next hversion =>
    constructor
    · intro h
      obtain rfl := Except.ok.inj h
      cases hv
    · rintro ⟨hno, -⟩
      rw [hno] at hversion
      cases hversion
  next hversion =>
    cases hpairs : s.pairs.mapM splitPair with
    | error e => simp [bind, Except.bind]
    | ok pairs =>
      simp only [bind, Except.bind, Except.ok.injEq, exists_eq_left']
      cases hobj : (ofPairs s pairs).objection? with
      | some e =>
        refine ⟨fun h => (nomatch h), ?_⟩
        rintro ⟨-, rfl, hnone⟩
        rw [hobj] at hnone
        cases hnone
      | none =>
        refine ⟨fun h => ?_, ?_⟩
        · obtain rfl := Except.ok.inj h
          exact ⟨by simpa using hversion, rfl, hobj⟩
        · rintro ⟨-, rfl, -⟩
          rfl

/-! ### The arguments of a configuration -/

theorem readSwitch?_toString (b : Bool) : readSwitch? (toString b) = some b := by
  cases b <;> decide

theorem readAll_pairs (s : Settings) (pairs : List (String × String)) :
    s.readAll (pairs.map fun p => Flag.pair.argument (joinPair p)) =
      .ok { s with pairs := s.pairs ++ pairs.map joinPair } := by
  induction pairs generalizing s with
  | nil => simp [Settings.readAll]
  | cons p pairs ih =>
    rw [List.map_cons, Settings.readAll_argument]
    simp only [Settings.assign, Except.bind, ih, List.append_assoc, List.map_cons,
      List.singleton_append]

theorem readAll_toArgs {n : Nat} (hjobs : c.jobs = n) (hfits : n < Text.signedBound) :
    Settings.readAll {} c.toArgs = .ok
      { pkg := c.pkg, pairs := c.pairs.map joinPair, leftPkg := c.leftPkg, rightPkg := c.rightPkg
        jobs := c.jobs, directional := c.directional, output := c.output, noColor := c.noColor } := by
  simp only [toArgs, List.cons_append, List.nil_append, Settings.readAll_argument,
    Settings.assign, hjobs, Text.readInt_toString hfits, readSwitch?_toString, Except.bind, bind,
    pure, Except.pure, readAll_pairs]

/-- **The arguments of a configuration ask for it**, if it is in normal form and its number of jobs
fits. -/
theorem ofArgs_toArgs (hc : c.Normal) (hv : c.showVersion = false)
    (hfits : c.jobs < Text.signedBound) : ofArgs c.toArgs = .ok c := by
  obtain ⟨n, hjobs⟩ := Int.eq_ofNat_of_zero_le hc.jobs
  have hn : n < Text.signedBound := by
    rw [hjobs] at hfits
    exact_mod_cast hfits
  have hmade : ofPairs
      { pkg := c.pkg, pairs := c.pairs.map joinPair, leftPkg := c.leftPkg, rightPkg := c.rightPkg
        jobs := c.jobs, directional := c.directional, output := c.output, noColor := c.noColor }
      c.pairs = c := by
    obtain ⟨pkg, pairs, leftPkg, rightPkg, jobs, directional, output, noColor, showVersion⟩ := c
    cases hv
    simp only [ofPairs, hc.left_trimmed, hc.right_trimmed]
  simp only [ofArgs, readAll_toArgs hjobs hn]
  refine (ofSettings_eq_ok hv).2 ⟨rfl, c.pairs, mapM_splitPair hc.pairs, hmade, ?_⟩
  rw [← hmade] at hc ⊢
  exact (objection?_eq_none hc.pairs).2 hc

theorem normal_of_ofArgs (h : ofArgs args = .ok c) (hv : c.showVersion = false) :
    c.Normal ∧ c.jobs < Text.signedBound := by
  unfold ofArgs at h
  split at h
  · cases h
  next s hs =>
  obtain ⟨-, pairs, hpairs, rfl, hobj⟩ := (ofSettings_eq_ok hv).1 h
  refine ⟨(objection?_eq_none (normalPair_of_mapM hpairs)).1 hobj, ?_⟩
  exact Settings.readAll_keeps Settings.kept_jobs hs (by decide)

end Config

/-- **What arguments ask for is in normal form, and it can be asked for again.** Whatever list of
arguments gives a configuration that does not ask for the version: both sides of every pair are
trimmed and not empty, and the left one has no equals sign; there is a pair, or both packages to
audit are set; these are trimmed and either both set or both empty; the package of the expressions
is not blank and the number of jobs is not negative. The arguments that spell this configuration out,
setting by setting and then pair by pair, give exactly this configuration. -/
theorem arguments_normal {args : List String} {c : Config} (h : Config.ofArgs args = .ok c)
    (hv : c.showVersion = false) : c.Normal ∧ Config.ofArgs c.toArgs = .ok c := by
  obtain ⟨hnormal, hfits⟩ := Config.normal_of_ofArgs h hv
  exact ⟨hnormal, Config.ofArgs_toArgs hnormal hv hfits⟩

/-- Flags in other forms: letters in a group, values in the next argument or after the letter, white
space around the sides of a pair, and further equals signs in its right side. -/
theorem arguments_normal_example :
    let args := ["-j07", "--pair", " Left\t= map[string]int\x7b\"a=b, c\": 1\x7d ", "-po", "-p", " . ",
      "rest", "--directional=T", "--pair=A==", "--left-pkg= ./a ", "--right-pkg", "./b\n",
      "--jobs=0x10", "--", "--jobs=-1"]
    let c : Config :=
      { pkg := " . ", pairs := [("Left", "map[string]int\x7b\"a=b, c\": 1\x7d"), ("A", "=")]
        leftPkg := "./a", rightPkg := "./b", jobs := 16, directional := true }
    Config.ofArgs args = .ok c ∧ c.showVersion = false ∧
      c.Normal ∧ Config.ofArgs c.toArgs = .ok c := by
  intro args c
  have hc : Config.ofArgs args = .ok c := by decide +kernel
  exact ⟨hc, rfl, arguments_normal hc rfl⟩

end EverEqual
