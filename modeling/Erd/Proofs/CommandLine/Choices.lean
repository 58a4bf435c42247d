import Erd.CommandLine.Command
import Erd.Proofs.Building
import Mathlib.Tactic.SplitIfs

/-!
# Accepted settings

What a scan accepts as the value of an option is one of the choices of the option, whether the option was
named in full, cut short or with its value attached. The one way past the choices is not to name the option:
the dialect of a conversion is then the one of the settings, which nothing has checked.

**Results.**
* `admits_scan`: every setting of a scan is admitted by the grammar.
* `dialect_of_ofArguments`: the dialect of an accepted conversion is a known one, or that of the settings.
-/
namespace Erd.CommandLine

variable {g : Grammar}

/-! ## Options of the grammar -/

theorem Grammar.mem_of_named? {name : String} {o : Opt} (h : g.named? name = some o) : o ∈ g.options :=
  List.mem_of_find?_eq_some h

theorem Grammar.mem_of_mem_names {n : String × Opt} (h : n ∈ g.names) : n.2 ∈ g.options := by
  obtain ⟨o, ho, hn⟩ := List.mem_flatMap.mp h
  obtain ⟨name, -, rfl⟩ := List.mem_map.mp hn
  exact ho

theorem Grammar.mem_of_inFull? {arg : List Char} {u : Use} (h : g.inFull? arg = some u) :
    u.option ∈ g.options := by
  unfold Grammar.inFull? at h
  split at h
  · next o ho =>
    cases h
    exact mem_of_named? ho
  · split at h
    · cases h
    · obtain ⟨o, ho, rfl⟩ := Option.map_eq_some_iff.mp h
      exact mem_of_named? ho

theorem Grammar.mem_of_mem_possible {arg : List Char} {u : Use} (h : u ∈ g.possible arg) :
    u.option ∈ g.options := by
  unfold Grammar.possible at h
  split at h
  · obtain ⟨n, hn, rfl⟩ := List.mem_map.mp h
    exact mem_of_mem_names (List.mem_filter.mp hn).1
  · obtain ⟨n, hn, hu⟩ := List.mem_filterMap.mp h
    split_ifs at hu <;> cases hu <;> exact mem_of_mem_names hn
  · cases h

theorem Grammar.mem_of_item {arg text : String} {u : Use} (h : g.item arg = .ok (.use text u)) :
    u.option ∈ g.options := by
  unfold Grammar.item at h
  split at h
  · simp only at h
    split at h
    · next u' hu =>
      cases h
      exact mem_of_inFull? hu
    · split at h
      · split at h <;> cases h
      · next u' hu =>
        cases h
        exact mem_of_mem_possible (by rw [hu]; exact List.mem_singleton_self u)
      · cases h
  · cases h

/-- The options that arguments use are those of the grammar. -/
theorem Grammar.mem_of_items {args : List String} {is : List Item} (h : g.items args = .ok is) {text : String}
    {u : Use} (hu : .use text u ∈ is) : u.option ∈ g.options := by
  induction args generalizing is with
  | nil =>
    cases h
    cases hu
  | cons arg args ih =>
    rw [Grammar.items] at h
    split_ifs at h with hsep
    · cases h
      simp at hu
    · cases hi : g.item arg with
      | error m => simp [hi] at h
      | ok i =>
        cases his : g.items args with
        | error m => simp [hi, his, Except.map] at h
        | ok rest =>
          simp only [hi, his, Except.map, Except.ok.injEq] at h
          subst h
          rcases List.mem_cons.mp hu with rfl | hu
          · exact mem_of_item hi
          · exact ih his hu

/-! ## What is taken -/

/-- All that was taken belongs to options of the grammar. -/
structure Taken.Within (g : Grammar) (t : Taken) : Prop where
  settings : ∀ p ∈ t.settings, p.1 ∈ g.options
  waiting : ∀ o ∈ t.waiting, o ∈ g.options

section Taken

variable {o : Opt} {t : Taken} (ho : o ∈ g.options)

include ho

theorem within_takenAlone : (takenAlone o).Within g := by
  unfold takenAlone
  split_ifs
  · exact ⟨by simp, by simpa using ho⟩
  · exact ⟨by simpa using ho, by simp⟩

theorem within_takenAssigned {text : List Char} (h : takenAssigned o text = .ok t) : t.Within g := by
  unfold takenAssigned at h
  split_ifs at h
  cases h
  exact ⟨by simpa using ho, by simp⟩

theorem within_after {v : String} (h : t.Within g) : (Taken.after (o, v) t).Within g where
  settings p hp := (List.mem_cons.mp hp).elim (fun hp => hp ▸ ho) (h.settings p)
  waiting := h.waiting

end Taken

theorem within_takenAttached {o : Opt} (ho : o ∈ g.options) {text : List Char} {t : Taken}
    (h : takenAttached g o text = .ok t) : t.Within g := by
  induction text generalizing o t with
  | nil =>
    cases h
    exact within_takenAlone ho
  | cons c text ih =>
    rw [takenAttached] at h
    split_ifs at h with hv hc
    · cases h
      exact ⟨by simpa using ho, by simp⟩
    · split at h
      · cases h
        exact ⟨by simpa using ho, by simp⟩
      · next next hnext =>
        have hnext := Grammar.mem_of_named? hnext
        split at h
        · obtain ⟨t', ht, rfl⟩ := Except.map_eq_ok.mp h
          exact within_after ho (within_takenAssigned hnext ht)
        · obtain ⟨t', ht, rfl⟩ := Except.map_eq_ok.mp h
          exact within_after ho (ih hnext ht)

theorem within_taken {u : Use} (hu : u.option ∈ g.options) {t : Taken} (h : u.taken g = .ok t) :
    t.Within g := by
  unfold Use.taken at h
  split at h
  · cases h
    exact within_takenAlone hu
  · exact within_takenAttached hu h
  · exact within_takenAssigned hu h

/-! ## Scans -/

/-- The option is one of the grammar's, and the value one that it may have. -/
def Grammar.Admits (g : Grammar) (p : Setting) : Prop := p.1 ∈ g.options ∧ allows p.1.choices p.2

/-- The invariant of a scan: the settings that were made are admitted, and those that wait for the value of the
last one are options of the grammar. -/
structure Scan.Legal (g : Grammar) (s : Scan) : Prop where
  settings : ∀ p ∈ s.settings, g.Admits p
  waiting : ∀ before o, s.mode = .value before o → o ∈ g.options ∧ ∀ p ∈ before, p.1 ∈ g.options

namespace Scan

variable {s s' : Scan}

theorem Legal.of_settings (h : s.Legal g) (hs : s'.settings = s.settings)
    (hm : ∀ before o, s'.mode ≠ .value before o) : s'.Legal g where
  settings := hs ▸ h.settings
  waiting before o hmode := absurd hmode (hm before o)

theorem legal_set {p : Setting} (hp : p.1 ∈ g.options) (hs : s.Legal g) (h : s.set g p = .ok s') :
    s'.Legal g := by
  have hadd : allows p.1.choices p.2 → ({ s with settings := s.settings ++ [p] } : Scan).Legal g := fun hv =>
    ⟨fun q hq => (List.mem_append.mp hq).elim (hs.settings q) fun hq => List.mem_singleton.mp hq ▸ ⟨hp, hv⟩,
      hs.waiting⟩
  unfold Scan.set at h
  split at h
  · cases h
  · cases h
  · next he =>
    cases h
    exact hadd (by simp [Opt.choices, he, allows])
  · next choices he =>
    split_ifs at h with hv
    cases h
    exact hadd (by simpa [Opt.choices, he] using hv)

theorem legal_foldlM_set {ps : List Setting} (hps : ∀ p ∈ ps, p.1 ∈ g.options) (hs : s.Legal g)
    (h : ps.foldlM (Scan.set g) s = .ok s') : s'.Legal g := by
  induction ps generalizing s with
  | nil =>
    cases h
    exact hs
  | cons p ps ih =>
    obtain ⟨s₁, h₁, h⟩ := Except.bind_eq_ok.mp h
    obtain ⟨hp, hps⟩ := List.forall_mem_cons.mp hps
    exact ih hps (legal_set hp hs h₁) h

theorem legal_leave (hs : s.Legal g) (text : String) : (s.leave text).Legal g :=
  hs.of_settings rfl (by simp [leave])

theorem legal_take {t : Taken} (ht : t.Within g) (hs : s.Legal g) (h : s.take g t = .ok s') : s'.Legal g := by
  unfold Scan.take at h
  split at h
  · next o ho =>
    cases h
    refine ⟨hs.settings, fun before o' hmode => ?_⟩
    cases hmode
    exact ⟨ht.waiting o ho, ht.settings⟩
  · have hplain : ({ s with extras := s.extras ++ t.extra.toList, mode := .anything } : Scan).Legal g :=
      hs.of_settings rfl (by simp)
    exact legal_foldlM_set ht.settings hplain h

theorem legal_takeSeparator (hs : s.Legal g) : s.takeSeparator.Legal g := by
  unfold takeSeparator
  split_ifs
  · exact hs.of_settings rfl (by simp)
  · exact hs.of_settings rfl (by simp)
  · exact legal_leave hs _

theorem legal_fill {text : String} {rest : List String} (hs : s.Legal g) (h : s.fill g text rest = .ok s') :
    s'.Legal g := by
  unfold fill at h
  split_ifs at h
  cases h
  exact hs.of_settings rfl (by simp)

theorem legal_takePlain {text : String} (hs : s.Legal g) (h : s.takePlain g text = .ok s') : s'.Legal g := by
  unfold takePlain at h
  split_ifs at h
  · cases h
    exact legal_leave hs text
  · exact legal_fill hs h
  · exact legal_fill hs h

theorem legal_step {i : Item} (hi : ∀ text u, i = .use text u → u.option ∈ g.options) (hs : s.Legal g)
    (h : s.step g i = .ok s') : s'.Legal g := by
  unfold step at h
  split_ifs at h
  · cases h
    exact ⟨hs.settings, hs.waiting⟩
  split at h
  · next before o text hmode =>
    obtain ⟨ho, hbefore⟩ := hs.waiting before o hmode
    have hall : ∀ p ∈ before ++ [(o, text)], p.1 ∈ g.options := fun p hp =>
      (List.mem_append.mp hp).elim (hbefore p) fun hp => List.mem_singleton.mp hp ▸ ho
    have hfree : ({ s with mode := .anything } : Scan).Legal g := hs.of_settings rfl (by simp)
    exact legal_foldlM_set hall hfree h
  · cases h
  · exact legal_takePlain hs h
  · cases h
    exact legal_takeSeparator hs
  · cases h
    exact legal_leave hs _
  · split at h
    · cases h
    · next t ht => exact legal_take (within_taken (hi _ _ rfl) ht) hs h

theorem legal_steps {is : List Item} (his : ∀ text u, .use text u ∈ is → u.option ∈ g.options) (hs : s.Legal g)
    (h : is.foldlM (Scan.step g) s = .ok s') : s'.Legal g := by
  induction is generalizing s with
  | nil =>
    cases h
    exact hs
  | cons i is ih =>
    obtain ⟨s₁, h₁, h⟩ := Except.bind_eq_ok.mp h
    have hi : ∀ text u, i = .use text u → u.option ∈ g.options := fun text u hi =>
      his text u (hi ▸ List.mem_cons_self)
    exact ih (fun text u hu => his text u (List.mem_cons_of_mem i hu)) (legal_step hi hs h₁) h

theorem eq_of_close (h : finish.close g s = .ok s') : s' = s := by
  unfold finish.close at h
  split at h
  · cases h
    rfl
  · cases h

theorem settings_of_finish (h : s.finish g = .ok s') : s'.settings = s.settings := by
  unfold finish at h
  split at h
  · cases h
  · rw [eq_of_close h]
    rfl
  · rw [eq_of_close h]

end Scan

/-- Every setting of a scan is admitted by the grammar. -/
theorem admits_scan {args : List String} {s : Scan} (h : g.scan args = .ok s) :
    ∀ p ∈ s.settings, g.Admits p := by
  unfold Grammar.scan at h
  split at h
  · cases h
  · next is his =>
    obtain ⟨s₁, hsteps, hfinish⟩ := Except.bind_eq_ok.mp h
    have hlegal : s₁.Legal g :=
      Scan.legal_steps (fun text u => Grammar.mem_of_items his) ⟨by simp, by simp⟩ hsteps
    rw [Scan.settings_of_finish hfinish]
    exact hlegal.settings

theorem Scan.exists_of_value? {s : Scan} {name v : String} (h : s.value? name = some v) :
    ∃ p ∈ s.settings, name ∈ p.1.names ∧ p.2 = v := by
  obtain ⟨p, hp, rfl⟩ := Option.map_eq_some_iff.mp h
  exact ⟨p, List.mem_reverse.mp (List.mem_of_find?_eq_some hp), by simpa using List.find?_some hp, rfl⟩

/-! ## Conversions -/

theorem exists_of_ofArguments {settings : Settings} {args : List String} {c : Conversion}
    (h : Command.ofArguments settings args = .ok (.convert c)) :
    ∃ words inner, convertGrammar.scan words = .ok inner ∧ c = inner.conversion settings := by
  obtain ⟨outer, -, h⟩ := Except.bind_eq_ok.mp h
  have heq {inner : Scan} {c' : Command} (h : accepted outer inner c' = .ok (.convert c)) : c' = .convert c := by
    unfold accepted at h
    split at h
    · exact Except.ok.inj h
    · cases h
  split_ifs at h with hconvert
  · obtain ⟨inner, hinner, h⟩ := Except.bind_eq_ok.mp h
    exact ⟨outer.rest, inner, hinner, (Command.convert.inj (heq h)).symm⟩
  · obtain ⟨inner, -, h⟩ := Except.bind_eq_ok.mp h
    cases heq h

/-- The dialect of an accepted conversion is a known one, or that of the settings. -/
theorem dialect_of_ofArguments {settings : Settings} {args : List String} {c : Conversion}
    (h : Command.ofArguments settings args = .ok (.convert c)) :
    (∃ k : Dialect, c.dialect = k.name) ∨ c.dialect = settings.dialect := by
  obtain ⟨words, inner, hscan, rfl⟩ := exists_of_ofArguments h
  cases hv : inner.value? "--dialect" with
  | none => exact .inr (by simp [Scan.conversion, hv])
  | some v =>
    obtain ⟨p, hp, hname, rfl⟩ := Scan.exists_of_value? hv
    obtain ⟨hoption, hvalue⟩ := admits_scan hscan p hp
    have hchoices : p.1.choices = Dialect.all.map Dialect.name := by
      revert hname
      revert hoption
      generalize p.1 = o
      revert o
      decide
    rw [hchoices] at hvalue
    have hmem : p.2 ∈ Dialect.all.map Dialect.name := by simpa [allows, Dialect.all] using hvalue
    obtain ⟨k, -, hk⟩ := List.mem_map.mp hmem
    exact .inl ⟨k, by simp [Scan.conversion, hv, hk]⟩

end Erd.CommandLine
