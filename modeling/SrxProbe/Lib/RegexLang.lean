import Mathlib.Computability.Language
import SrxProbe.Lib.Regex

/-!
# The language of a pattern

What a pattern takes is a word of its language, and what a group captures is a word of
the language of the pattern in it. Lookarounds take the empty word.
-/

namespace SrxProbe.Lib.Regex

/-- The words that a pattern can take. -/
def lang : Regex → Language Char
  | eps => 1
  | cls p => {w | ∃ c, p c = true ∧ w = [c]}
  | look _ => 1
  | seq r q => r.lang * q.lang
  | alt r q => r.lang + q.lang
  | star r => KStar.kstar r.lang
  | group _ r => r.lang

/-- The groups of a pattern. -/
def captures : Regex → List (Nat × Regex)
  | eps | cls _ | look _ => []
  | seq r q | alt r q => r.captures ++ q.captures
  | star r => r.captures
  | group i r => (i, r) :: r.captures

/-- Each group of `s'` was there in `s`, or is a part of the text ahead of `s` and a
word of a group among `groups`. -/
def Captured (groups : List (Nat × Regex)) (s s' : MatchState) : Prop :=
  ∀ g ∈ s'.groups, g ∈ s.groups ∨ g.2 <:+: s.rest ∧ ∃ q, (g.1, q) ∈ groups ∧ g.2 ∈ q.lang

/-- `s'` is reached from `s` by taking a word of `l`. -/
structure Took (l : Language Char) (groups : List (Nat × Regex)) (s s' : MatchState) : Prop where
  word : ∃ w ∈ l, s.rest = w ++ s'.rest
  kept : s.groups <:+ s'.groups
  captured : Captured groups s s'

variable {r : Regex} {l l' : Language Char} {groups groups' : List (Nat × Regex)}
  {s s' s'' : MatchState}

theorem Took.nothing (s : MatchState) : Took 1 groups s s :=
  ⟨⟨[], Language.nil_mem_one, rfl⟩, List.suffix_refl _, fun _ hg => .inl hg⟩

theorem Captured.mono (h : Captured groups s s') (hsub : groups ⊆ groups') :
    Captured groups' s s' := by
  intro g hg
  rcases h g hg with hold | ⟨hpart, q, hq, hword⟩
  · exact .inl hold
  · exact .inr ⟨hpart, q, hsub hq, hword⟩

theorem Captured.trans (h : Captured groups s s') (h' : Captured groups s' s'')
    (hrest : s'.rest <:+ s.rest) : Captured groups s s'' := by
  intro g hg
  rcases h' g hg with hold | ⟨hpart, hnew⟩
  · exact h g hold
  · exact .inr ⟨hpart.trans hrest.isInfix, hnew⟩

theorem Took.rest_suffix (h : Took l groups s s') : s'.rest <:+ s.rest := by
  obtain ⟨w, -, hrest⟩ := h.word
  exact ⟨w, hrest.symm⟩

theorem Took.seq (h : Took l groups s s') (h' : Took l' groups s' s'') :
    Took (l * l') groups s s'' := by
  obtain ⟨w, hw, hrest⟩ := h.word
  obtain ⟨w', hw', hrest'⟩ := h'.word
  refine ⟨⟨w ++ w', Language.mem_mul.mpr ⟨w, hw, w', hw', rfl⟩, ?_⟩, h.kept.trans h'.kept,
    h.captured.trans h'.captured h.rest_suffix⟩
  rw [hrest, hrest', List.append_assoc]

theorem took_iterate {step : MatchState → List MatchState}
    (hstep : ∀ s, ∀ s' ∈ step s, Took l groups s s') (n : Nat) :
    ∀ s' ∈ iterate step n s, Took (KStar.kstar l) groups s s' := by
  have hnil : ∀ s : MatchState, Took (KStar.kstar l) groups s s :=
    fun s => ⟨⟨[], Language.nil_mem_kstar l, rfl⟩, List.suffix_refl _, fun _ hg => .inl hg⟩
  induction n generalizing s with
  | zero =>
      intro s' hs'
      rw [List.mem_singleton.mp hs']
      exact hnil s
  | succ n ih =>
      intro s' hs'
      rcases List.mem_append.mp hs' with hs' | hs'
      · obtain ⟨t, ht, hs'⟩ := List.mem_flatMap.mp hs'
        have hturn := (hstep s t (List.mem_filter.mp ht).1).seq (ih s' hs')
        obtain ⟨w, hw, hrest⟩ := hturn.word
        refine ⟨⟨w, ?_, hrest⟩, hturn.kept, hturn.captured⟩
        rw [← Language.one_add_self_mul_kstar_eq_kstar]
        exact .inr hw
      · rw [List.mem_singleton.mp hs']
        exact hnil s

/-- **A pattern takes a word of its language**, and its groups capture words of theirs. -/
theorem took_of_run {s : MatchState} : ∀ s' ∈ r.run s, Took r.lang r.captures s s' := by
  induction r generalizing s with
  | eps =>
      intro s' hs'
      rw [List.mem_singleton.mp hs']
      exact Took.nothing s
  | cls p =>
      intro s' hs'
      rw [run] at hs'
      split at hs'
      · cases hs'
      · rename_i c rest hrest
        split at hs'
        · rename_i hp
          rw [List.mem_singleton.mp hs']
          exact ⟨⟨[c], ⟨c, hp, rfl⟩, hrest⟩, List.suffix_refl _, fun _ hg => .inl hg⟩
        · cases hs'
  | look p =>
      intro s' hs'
      rw [run] at hs'
      split at hs'
      · rw [List.mem_singleton.mp hs']
        exact Took.nothing s
      · cases hs'
  | seq r q ih ih' =>
      intro s' hs'
      obtain ⟨t, ht, hs'⟩ := List.mem_flatMap.mp hs'
      have hfirst := ih t ht
      have hsecond := ih' s' hs'
      exact Took.seq
        ⟨hfirst.word, hfirst.kept, hfirst.captured.mono (List.subset_append_left _ _)⟩
        ⟨hsecond.word, hsecond.kept, hsecond.captured.mono (List.subset_append_right _ _)⟩
  | alt r q ih ih' =>
      intro s' hs'
      rcases List.mem_append.mp hs' with hs' | hs'
      · have htook := ih s' hs'
        obtain ⟨w, hw, hrest⟩ := htook.word
        exact ⟨⟨w, .inl hw, hrest⟩, htook.kept,
          htook.captured.mono (List.subset_append_left _ _)⟩
      · have htook := ih' s' hs'
        obtain ⟨w, hw, hrest⟩ := htook.word
        exact ⟨⟨w, .inr hw, hrest⟩, htook.kept,
          htook.captured.mono (List.subset_append_right _ _)⟩
  -- a loop takes a word per turn, by `took_iterate`
  | star r ih => exact took_iterate (fun s s' hs' => ih s' hs') _
  | group i r ih =>
      intro s' hs'
      obtain ⟨t, ht, rfl⟩ := List.mem_map.mp hs'
      have htook := ih t ht
      obtain ⟨w, hw, hrest⟩ := htook.word
      refine ⟨⟨w, hw, hrest⟩, htook.kept.trans (List.suffix_cons _ _), ?_⟩
      intro g hg
      rcases List.mem_cons.mp hg with rfl | hg
      · refine .inr ⟨(List.take_prefix _ _).isInfix, r, List.mem_cons_self, ?_⟩
        show s.rest.take (s.rest.length - t.rest.length) ∈ r.lang
        rw [hrest, List.length_append, Nat.add_sub_cancel, List.take_left]
        exact hw
      · exact htook.captured.mono (List.subset_cons_self _ _) g hg

/-- A group of a match is a part of the text, and a word of one of the patterns with
its number. -/
theorem group_mem_lang {before rest : List Char} {m : Match} {i : Nat} {text : PyStr}
    (hmatch : r.matchAt before rest = some m) (hgroup : m.group i = some text) :
    text <:+: rest ∧ ∃ q, (i, q) ∈ r.captures ∧ text ∈ q.lang := by
  obtain ⟨s', hs', rfl⟩ := Option.map_eq_some_iff.mp hmatch
  obtain ⟨l, hl⟩ := List.head?_eq_some_iff.mp hs'
  have htook := took_of_run s' (by rw [hl]; exact List.mem_cons_self)
  have hmem : (i, text) ∈ s'.groups := by
    obtain ⟨front, back, hsplit, -⟩ := List.lookup_eq_some_iff.mp hgroup
    have hgroups : s'.groups = front ++ (i, text) :: back := hsplit
    rw [hgroups]
    exact List.mem_append_right _ List.mem_cons_self
  rcases htook.captured (i, text) hmem with hold | hnew
  · cases hold
  · exact hnew

/-- What a match took is a word of the pattern, and what it left is the rest. -/
theorem text_of_matchAt {before rest : List Char} {m : Match}
    (h : r.matchAt before rest = some m) :
    m.text ∈ r.lang ∧ rest = m.text ++ m.rest ∧ m.before = before := by
  obtain ⟨s', hs', rfl⟩ := Option.map_eq_some_iff.mp h
  obtain ⟨l, hl⟩ := List.head?_eq_some_iff.mp hs'
  obtain ⟨w, hw, hrest⟩ := (took_of_run s' (by rw [hl]; exact List.mem_cons_self)).word
  have htext : (toMatch before rest s').text = w := by
    show rest.take (rest.length - s'.rest.length) = w
    rw [show rest = w ++ s'.rest from hrest, List.length_append, Nat.add_sub_cancel, List.take_left]
  rw [htext]
  exact ⟨hw, hrest, rfl⟩

theorem captures_lit (text : PyStr) : (lit text).captures = [] := by
  induction text with
  | nil => rfl
  | cons c text ih => exact ih

/-! ## Groups that every match has -/

/-- Group `i` takes part in every match. -/
def always (i : Nat) : Regex → Bool
  | eps | cls _ | look _ | star _ => false
  | seq r q => r.always i || q.always i
  | alt r q => r.always i && q.always i
  | group j r => i = j || r.always i

theorem mem_groups_of_always {i : Nat} (h : r.always i = true) {s : MatchState} :
    ∀ s' ∈ r.run s, ∃ text, (i, text) ∈ s'.groups := by
  induction r generalizing s with
  | eps => cases h
  | cls p => cases h
  | look p => cases h
  | seq r q ih ih' =>
      intro s' hs'
      obtain ⟨t, ht, hs'⟩ := List.mem_flatMap.mp hs'
      rcases Bool.or_eq_true_iff.mp h with h | h
      · obtain ⟨text, htext⟩ := ih h t ht
        exact ⟨text, (took_of_run s' hs').kept.subset htext⟩
      · exact ih' h s' hs'
  | alt r q ih ih' =>
      intro s' hs'
      obtain ⟨h, h'⟩ := Bool.and_eq_true_iff.mp h
      rcases List.mem_append.mp hs' with hs' | hs'
      · exact ih h s' hs'
      · exact ih' h' s' hs'
  | star r => cases h
  | group j r ih =>
      intro s' hs'
      obtain ⟨t, ht, rfl⟩ := List.mem_map.mp hs'
      rcases Bool.or_eq_true_iff.mp h with h | h
      · exact ⟨_, by rw [of_decide_eq_true h]; exact List.mem_cons_self⟩
      · obtain ⟨text, htext⟩ := ih h t ht
        exact ⟨text, List.mem_cons_of_mem _ htext⟩

theorem exists_group {before rest : List Char} {m : Match} {i : Nat}
    (hmatch : r.matchAt before rest = some m) (h : r.always i = true) :
    ∃ text, m.group i = some text := by
  obtain ⟨s', hs', rfl⟩ := Option.map_eq_some_iff.mp hmatch
  obtain ⟨l, hl⟩ := List.head?_eq_some_iff.mp hs'
  obtain ⟨text, htext⟩ := mem_groups_of_always h s' (by rw [hl]; exact List.mem_cons_self)
  rw [← Option.isSome_iff_exists, Match.group, List.lookup_isSome_iff]
  exact ⟨(i, text), htext, beq_self_eq_true i⟩

/-! ## Words of the derived patterns -/

section words

variable {p : Char → Bool} {w : List Char}

theorem mem_lang_cat_cons {rs : List Regex} :
    w ∈ (cat (r :: rs)).lang ↔ ∃ v ∈ r.lang, ∃ u ∈ (cat rs).lang, v ++ u = w := Language.mem_mul

theorem mem_lang_cat_nil : w ∈ (cat []).lang ↔ w = [] := Iff.rfl

theorem mem_lang_cat_last : w ∈ (cat [r]).lang ↔ w ∈ r.lang := by
  rw [mem_lang_cat_cons]
  constructor
  · rintro ⟨v, hv, u, hu, rfl⟩
    rw [mem_lang_cat_nil.mp hu, List.append_nil]
    exact hv
  · intro hw
    exact ⟨w, hw, [], mem_lang_cat_nil.mpr rfl, List.append_nil w⟩

/-- The words of a repeated class are those over the class. -/
theorem over_of_mem_lang_star (h : w ∈ (star (cls p)).lang) : ∀ c ∈ w, p c = true := by
  obtain ⟨words, rfl, hwords⟩ := Language.mem_kstar.mp h
  intro c hc
  obtain ⟨word, hword, hc⟩ := List.mem_flatten.mp hc
  obtain ⟨d, hd, rfl⟩ := hwords word hword
  rw [List.mem_singleton.mp hc]
  exact hd

theorem over_of_mem_lang_plus (h : w ∈ (plus (cls p)).lang) :
    w ≠ [] ∧ ∀ c ∈ w, p c = true := by
  obtain ⟨v, ⟨c, hc, rfl⟩, u, hu, rfl⟩ := Language.mem_mul.mp h
  refine ⟨List.cons_ne_nil c u, ?_⟩
  intro d hd
  rcases List.mem_cons.mp hd with rfl | hd
  · exact hc
  · exact over_of_mem_lang_star hu d hd

theorem mem_lang_star_cls (h : ∀ c ∈ w, p c = true) : w ∈ (star (cls p)).lang := by
  refine Language.mem_kstar.mpr ⟨w.map fun c => [c], ?_, ?_⟩
  · rw [← List.flatMap_def]
    exact (List.flatMap_singleton' w).symm
  · intro v hv
    obtain ⟨c, hc, rfl⟩ := List.mem_map.mp hv
    exact ⟨c, h c hc, rfl⟩

theorem mem_lang_plus_cls (hne : w ≠ []) (h : ∀ c ∈ w, p c = true) :
    w ∈ (plus (cls p)).lang := by
  cases w with
  | nil => exact absurd rfl hne
  | cons c w =>
      have hrest := mem_lang_star_cls fun d hd => h d (List.mem_cons_of_mem c hd)
      exact Language.mem_mul.mpr ⟨[c], ⟨c, h c List.mem_cons_self, rfl⟩, w, hrest, rfl⟩

theorem over_of_mem_lang_upTo {n : Nat} (h : w ∈ (upTo (cls p) n).lang) :
    w.length ≤ n ∧ ∀ c ∈ w, p c = true := by
  induction n generalizing w with
  | zero =>
      rw [show w = [] from h]
      exact ⟨Nat.zero_le _, nofun⟩
  | succ n ih =>
      rcases h with ⟨v, ⟨c, hc, rfl⟩, u, hu, rfl⟩ | hnil
      · obtain ⟨hlen, hu⟩ := ih hu
        refine ⟨Nat.succ_le_succ hlen, ?_⟩
        intro d hd
        rcases List.mem_cons.mp hd with rfl | hd
        · exact hc
        · exact hu d hd
      · rw [show w = [] from hnil]
        exact ⟨Nat.zero_le _, nofun⟩

/-- The words of a counted repetition of a class. -/
theorem over_of_mem_lang_reps {lo more : Nat} (h : w ∈ (reps (cls p) more lo).lang) :
    lo ≤ w.length ∧ w.length ≤ lo + more ∧ ∀ c ∈ w, p c = true := by
  induction lo generalizing w with
  | zero =>
      obtain ⟨hlen, hw⟩ := over_of_mem_lang_upTo h
      exact ⟨Nat.zero_le _, by omega, hw⟩
  | succ lo ih =>
      obtain ⟨v, ⟨c, hc, rfl⟩, u, hu, rfl⟩ := Language.mem_mul.mp h
      obtain ⟨hlo, hhi, hu⟩ := ih hu
      refine ⟨Nat.succ_le_succ hlo, ?_, ?_⟩
      · rw [List.singleton_append, List.length_cons]
        omega
      · intro d hd
        rcases List.mem_cons.mp hd with rfl | hd
        · exact hc
        · exact hu d hd

theorem mem_lang_chr {c : Char} : w ∈ (chr c).lang ↔ w = [c] := by
  constructor
  · rintro ⟨d, hd, rfl⟩
    rw [beq_iff_eq.mp hd]
  · intro hw
    exact ⟨c, beq_self_eq_true c, hw⟩

theorem mem_lang_lit {text : PyStr} : w ∈ (lit text).lang ↔ w = text := by
  induction text generalizing w with
  | nil => exact mem_lang_cat_nil
  | cons c text ih =>
      constructor
      · intro hw
        obtain ⟨v, hv, u, hu, rfl⟩ := mem_lang_cat_cons.mp hw
        rw [mem_lang_chr.mp hv, ih.mp hu]
        rfl
      · rintro rfl
        exact mem_lang_cat_cons.mpr ⟨[c], mem_lang_chr.mpr rfl, text, ih.mpr rfl, rfl⟩

theorem mem_lang_alt {q : Regex} : w ∈ (alt r q).lang ↔ w ∈ r.lang ∨ w ∈ q.lang := Iff.rfl

theorem mem_lang_eps : w ∈ eps.lang ↔ w = [] := Iff.rfl

end words

/-! ## Words that are taken -/

/-- The pattern looks at nothing but what it takes. -/
def blind : Regex → Bool
  | eps | cls _ => true
  | look _ => false
  | seq r q | alt r q => r.blind && q.blind
  | star r | group _ r => r.blind

/-- **A pattern that looks at nothing else can take every word of its language**,
wherever it stands. -/
theorem exists_run_of_mem_lang (hblind : r.blind = true) {w : List Char} (hw : w ∈ r.lang)
    (before rest : List Char) (groups : List (Nat × PyStr)) :
    ∃ groups', ⟨w.reverse ++ before, rest, groups'⟩ ∈ r.run ⟨before, w ++ rest, groups⟩ := by
  induction r generalizing w before rest groups with
  | eps =>
      rw [show w = [] from hw]
      exact ⟨groups, List.mem_singleton_self _⟩
  | cls p =>
      obtain ⟨c, hc, rfl⟩ := hw
      refine ⟨groups, ?_⟩
      show _ ∈ (if p c = true then _ else _ : List MatchState)
      rw [if_pos hc]
      exact List.mem_singleton_self _
  | look p => cases hblind
  | seq r q ih ih' =>
      obtain ⟨hr, hq⟩ := Bool.and_eq_true_iff.mp hblind
      obtain ⟨v, hv, u, hu, rfl⟩ := Language.mem_mul.mp hw
      obtain ⟨groups', hfirst⟩ := ih hr hv before (u ++ rest) groups
      obtain ⟨groups'', hsecond⟩ := ih' hq hu (v.reverse ++ before) rest groups'
      refine ⟨groups'', ?_⟩
      rw [List.append_assoc, List.reverse_append, List.append_assoc]
      exact List.mem_flatMap.mpr ⟨_, hfirst, hsecond⟩
  | alt r q ih ih' =>
      obtain ⟨hr, hq⟩ := Bool.and_eq_true_iff.mp hblind
      rcases mem_lang_alt.mp hw with hw | hw
      · obtain ⟨groups', hrun⟩ := ih hr hw before rest groups
        exact ⟨groups', List.mem_append_left _ hrun⟩
      · obtain ⟨groups', hrun⟩ := ih' hq hw before rest groups
        exact ⟨groups', List.mem_append_right _ hrun⟩
  | star r ih =>
      obtain ⟨words, rfl, hwords⟩ := Language.mem_kstar_iff_exists_nonempty.mp hw
      clear hw
      -- on the words, which are not empty, so that every turn leaves a shorter rest
      induction words generalizing before groups with
      | nil =>
          refine ⟨groups, ?_⟩
          rw [run_star]
          exact List.mem_append_right _ (List.mem_singleton_self _)
      | cons v words ih' =>
          obtain ⟨hv, hne⟩ := hwords v List.mem_cons_self
          obtain ⟨groups', hfirst⟩ := ih hblind hv before (words.flatten ++ rest) groups
          obtain ⟨groups'', hrest⟩ := ih' (v.reverse ++ before) groups'
            fun u hu => hwords u (List.mem_cons_of_mem v hu)
          refine ⟨groups'', ?_⟩
          have hshorter : (words.flatten ++ rest).length <
              (v ++ (words.flatten ++ rest)).length := by
            have hpos : 0 < v.length := List.length_pos_iff.mpr hne
            have hsum : (v ++ (words.flatten ++ rest)).length =
                v.length + (words.flatten ++ rest).length := List.length_append
            omega
          rw [run_star, List.flatten_cons, List.append_assoc, List.reverse_append,
            List.append_assoc]
          exact List.mem_append_left _ (List.mem_flatMap.mpr
            ⟨_, List.mem_filter.mpr ⟨hfirst, decide_eq_true hshorter⟩, hrest⟩)
  | group i r ih =>
      obtain ⟨groups', hrun⟩ := ih hblind hw before rest groups
      exact ⟨_, List.mem_map.mpr ⟨_, hrun, rfl⟩⟩

/-- A group between two looks. -/
theorem mem_run_framed {p q : List Char → List Char → Bool} {i : Nat} :
    s' ∈ (cat [look p, group i r, look q]).run s ↔ p s.before s.rest = true ∧
      ∃ t ∈ r.run s, q t.before t.rest = true ∧
        s' = { t with groups := (i, s.rest.take (s.rest.length - t.rest.length)) :: t.groups } := by
  have hlook : ∀ {p : List Char → List Char → Bool} {t t' : MatchState},
      t' ∈ (look p).run t ↔ p t.before t.rest = true ∧ t' = t := by
    intro p t t'
    rw [run]
    split
    next h => simp [h]
    next h => simp [h]
  constructor
  · intro h
    obtain ⟨s₁, hfront, hrest⟩ := List.mem_flatMap.mp h
    obtain ⟨hp, rfl⟩ := hlook.mp hfront
    obtain ⟨s₂, hgroup, hback⟩ := List.mem_flatMap.mp hrest
    obtain ⟨t, ht, rfl⟩ := List.mem_map.mp hgroup
    obtain ⟨s₃, hlast, hend⟩ := List.mem_flatMap.mp hback
    obtain ⟨hq, rfl⟩ := hlook.mp hlast
    exact ⟨hp, t, ht, hq, List.mem_singleton.mp hend⟩
  · rintro ⟨hp, t, ht, hq, rfl⟩
    refine List.mem_flatMap.mpr ⟨s, hlook.mpr ⟨hp, rfl⟩, ?_⟩
    refine List.mem_flatMap.mpr ⟨_, List.mem_map.mpr ⟨t, ht, rfl⟩, ?_⟩
    exact List.mem_flatMap.mpr ⟨_, hlook.mpr ⟨hq, rfl⟩, List.mem_singleton_self _⟩

theorem over_of_mem_lang {q : Char → Prop} (hblind : r.blind = true) (hover : r.Over q)
    {w : List Char} (hw : w ∈ r.lang) : ∀ c ∈ w, q c := by
  obtain ⟨groups', hrun⟩ := exists_run_of_mem_lang hblind hw [] [] []
  obtain ⟨v, hv, -, hall⟩ := hover.takes _ hrun
  rw [List.append_cancel_right hv]
  exact hall

/-! ## Matches up to the end -/

theorem rest_of_run_lineEnd {rs : List Regex} {s : MatchState} :
    ∀ s' ∈ (cat (rs ++ [lineEnd])).run s, s'.rest = [] ∨ s'.rest = ['\n'] := by
  induction rs generalizing s with
  | nil =>
      intro s' hs'
      obtain ⟨t, ht, hs'⟩ := List.mem_flatMap.mp hs'
      rw [List.mem_singleton.mp hs']
      rw [lineEnd, run] at ht
      split at ht
      · rename_i hend
        rw [List.mem_singleton.mp ht]
        simpa using hend
      · cases ht
  | cons r rs ih =>
      intro s' hs'
      obtain ⟨t, -, hs'⟩ := List.mem_flatMap.mp hs'
      exact ih s' hs'

/-- A pattern with `$` at its end takes a text without a line feed whole. -/
theorem mem_lang_of_matchAt {rs : List Regex} {before text : List Char} {m : Match}
    (hlast : rs.getLast? = some lineEnd) (h : (cat rs).matchAt before text = some m)
    (hend : text.getLast? ≠ some '\n') : text ∈ (cat rs).lang := by
  obtain ⟨front, rfl⟩ := List.getLast?_eq_some_iff.mp hlast
  obtain ⟨s', hs', -⟩ := Option.map_eq_some_iff.mp h
  obtain ⟨l, hl⟩ := List.head?_eq_some_iff.mp hs'
  have hmem : s' ∈ (cat (front ++ [lineEnd])).run ⟨before, text, []⟩ := by
    rw [hl]
    exact List.mem_cons_self
  obtain ⟨w, hw, hrest⟩ := (took_of_run s' hmem).word
  have htext : text = w ++ s'.rest := hrest
  rcases rest_of_run_lineEnd s' hmem with hnil | hfeed
  · rw [hnil, List.append_nil] at htext
    rw [htext]
    exact hw
  · rw [htext, hfeed, List.getLast?_concat] at hend
    exact absurd rfl hend

end SrxProbe.Lib.Regex
