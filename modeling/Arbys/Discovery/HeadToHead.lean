import Mathlib.Data.List.TakeWhile
import Arbys.Discovery.Kalshi
import Arbys.Discovery.TeamTitles

/-!
# Two players, coded twice

`_parse_kalshi_tennis_event` reads the players off the title of an event, coded
by `last_name_code`, and the sides off the sub-titles of its markets, coded by
an expression of its own: the last word, upper-cased, as it is written. The
first folds marks and a few letters, the second does not, so the two agree
exactly on the names whose last word folding leaves alone.
-/

namespace Arbys

variable (L : Locale)

/-- `yes_sub_title.split()[-1].upper()`, where there is a word. -/
def subTitleCode (name : String) : Option String := (words L name).getLast?.map L.upper

/-- The last word of a name, upper-cased, is the same before and after folding. -/
def CodedAlike (name : String) : Prop := subTitleCode L name = subTitleCode L (normalizeName L name)

/-- What stands before and after the first `vs` of the title is coded as the
two names are. -/
def TitleReads (title a b : String) : Prop :=
  ∃ x y, splitVs L [] (L.strip title).toList = some (x, y) ∧
    ((lastNameCode L (L.strip x) = lastNameCode L a ∧
        lastNameCode L (L.strip y) = lastNameCode L b) ∨
      (lastNameCode L (L.strip x) = lastNameCode L b ∧
        lastNameCode L (L.strip y) = lastNameCode L a))

/-- A word the pattern takes for the separator. -/
def IsVs (word : List Char) : Prop :=
  ∃ v s, (v = 'v' ∨ v = 'V') ∧ (s = 's' ∨ s = 'S' ∨ s = 'ſ') ∧
    (word = [v, s] ∨ word = [v, s, '.'])

/-- A name without blanks around it, and without a `vs` of its own. -/
structure PlainName (name : String) : Prop where
  ne_empty : name ≠ ""
  first : ∀ c ∈ name.toList.head?, L.isSpace c = false
  last : ∀ c ∈ name.toList.getLast?, L.isSpace c = false
  noVs : ∀ word ∈ words L name, ¬ IsVs word.toList

/-- A blank is one, and the letters of `vs` are none. -/
structure Locale.BlankLaws (L : Locale) : Prop where
  space : L.isSpace ' ' = true
  letters : ∀ c ∈ ['v', 'V', 's', 'S', 'ſ'], L.isSpace c = false

theorem lastNameCode_eq (name : String) :
    lastNameCode L name = (subTitleCode L (normalizeName L name)).getD "" := by
  rw [lastNameCode, subTitleCode]
  cases (words L (normalizeName L name)).getLast? <;> rfl

/-- A name that has a code is coded alike on both sides, or not at all so. -/
theorem codedAlike_iff {name : String} (h : lastNameCode L name ≠ "") :
    CodedAlike L name ↔ subTitleCode L name = some (lastNameCode L name) := by
  rw [lastNameCode_eq] at h ⊢
  rw [CodedAlike]
  cases hcode : subTitleCode L (normalizeName L name) with
  | none => exact absurd (by rw [hcode]; rfl) h
  | some code => rfl

/-! ## Where the title is cut -/

section Cut

variable {L}

/-- A text that neither starts nor ends with a blank is left as it is. -/
theorem Locale.strip_of_ends {text : String}
    (hfirst : ∀ c ∈ text.toList.head?, L.isSpace c = false)
    (hlast : ∀ c ∈ text.toList.getLast?, L.isSpace c = false) : L.strip text = text := by
  have hdrop : ∀ l : List Char, (∀ c ∈ l.head?, L.isSpace c = false) →
      l.dropWhile L.isSpace = l := by
    intro l hl
    cases l with
    | nil => rfl
    | cons c l => exact List.dropWhile_cons_of_neg (by simp [hl c rfl])
  rw [Locale.strip, hdrop _ hfirst, hdrop _ (by simpa using hlast), List.reverse_reverse,
    String.ofList_toList]

/-- A word and a blank are no separator, unless the word is one. -/
theorem afterVs_word (hL : L.BlankLaws) {word rest : List Char} {c : Char}
    (hblank : L.isSpace c = true) (hword : ∀ d ∈ word, L.isSpace d = false)
    (hvs : ¬ IsVs word) : afterVs L (word ++ c :: rest) = none := by
  have hletter : ∀ d ∈ ['v', 'V', 's', 'S', 'ſ'], c ≠ d := by
    rintro d hd rfl
    rw [hL.letters _ hd] at hblank
    cases hblank
  -- the separator is read off at most three letters and the blank after them
  match word with
  | [] =>
      cases rest with
      | nil => rfl
      | cons s rest =>
          rw [List.nil_append, afterVs, if_neg]
          rintro ⟨rfl | rfl, -⟩ <;> exact hletter _ (by decide) rfl
  | [v] =>
      rw [List.singleton_append, afterVs, if_neg]
      rintro ⟨-, rfl | rfl | rfl⟩ <;> exact hletter _ (by decide) rfl
  | [v, s] =>
      show afterVs L (v :: s :: c :: rest) = none
      rw [afterVs, if_neg]
      exact fun h => hvs ⟨v, s, h.1, h.2, Or.inl rfl⟩
  | [v, s, d] =>
      show afterVs L (v :: s :: d :: c :: rest) = none
      have hd : L.isSpace d = false := hword d (by simp)
      rw [afterVs]
      split
      · rename_i h
        have hdot : d ≠ '.' := fun hd => hvs ⟨v, s, h.1, h.2, Or.inr (by rw [hd])⟩
        simp [hdot, hd]
      · rfl
  | v :: s :: d :: e :: word =>
      show afterVs L (v :: s :: d :: e :: (word ++ c :: rest)) = none
      have hd : L.isSpace d = false := hword d (by simp)
      have he : L.isSpace e = false := hword e (by simp)
      rw [afterVs]
      split
      · by_cases hdot : d = '.'
        · simp [hdot, he]
        · simp [hdot, hd]
      · rfl

/-- The words of what follows a blank are words of the whole. -/
theorem mem_words_after {name : String} {before word rest : List Char} {c : Char}
    (hsplit : name.toList = before ++ c :: rest) (hblank : L.isSpace c = true)
    (hword : word ∈ (rest.splitOnP L.isSpace).filter (· ≠ [])) :
    String.ofList word ∈ words L name := by
  rw [words, hsplit, List.splitOnP_append_cons _ _ hblank, List.filter_append, List.map_append]
  exact List.mem_append_right _ (List.mem_map_of_mem hword)

/-- The first word after the blanks of a text is one of its pieces. -/
theorem firstWord_mem (p : Char → Bool) (l : List Char) (h : l.dropWhile p ≠ []) :
    (l.dropWhile p).takeWhile (fun c => !p c) ∈ (l.splitOnP p).filter (· ≠ []) := by
  induction l with
  | nil => cases h rfl
  | cons c l ih =>
      by_cases hc : p c = true
      · rw [List.dropWhile_cons_of_pos hc] at h ⊢
        have hpieces := List.splitOnP_append_cons [] l hc
        rw [List.nil_append] at hpieces
        rw [hpieces, List.filter_append]
        exact List.mem_append_right _ (ih h)
      · have hne : (c :: l).takeWhile (fun c => !p c) ≠ [] := by simp [hc]
        rw [List.dropWhile_cons_of_neg hc]
        refine List.mem_filter.mpr ⟨?_, by simpa using hne⟩
        have hword : ∀ d ∈ (c :: l).takeWhile (fun c => !p c), p d = false := by
          intro d hd
          simpa using List.mem_takeWhile_imp hd
        have hl := List.takeWhile_append_dropWhile (p := fun c => !p c) (l := c :: l)
        cases hrest : (c :: l).dropWhile (fun c => !p c) with
        | nil =>
            rw [hrest, List.append_nil] at hl
            rw [hl] at hword ⊢
            rw [List.splitOnP_eq_singleton hword]
            exact List.mem_singleton_self _
        | cons d rest =>
            have hd : p d = true := by
              have hhead := List.head?_dropWhile_not (fun c => !p c) (c :: l)
              rw [hrest] at hhead
              simpa using hhead
            have hpieces := List.splitOnP_append_cons_of_forall_mem hword d hd rest
            rw [← hrest, hl] at hpieces
            rw [hpieces]
            exact List.mem_cons_self

/-- The title is not cut inside a text that no blank of cuts it. -/
theorem splitVs_append {u tail : List Char}
    (hnone : ∀ v c w, u = v ++ c :: w → L.isSpace c = true →
      afterVs L ((w ++ tail).dropWhile L.isSpace) = none) (before : List Char) :
    splitVs L before (u ++ tail) = splitVs L (u.reverse ++ before) tail := by
  induction u generalizing before with
  | nil => rfl
  | cons c u ih =>
      have hrest : ∀ before,
          splitVs L before (u ++ tail) = splitVs L (u.reverse ++ before) tail :=
        ih fun v d w hsplit hd => hnone (c :: v) d w (by rw [hsplit]; rfl) hd
      have hcut : (if L.isSpace c then afterVs L ((u ++ tail).dropWhile L.isSpace) else none) =
          none := by
        split
        · rename_i hc
          exact hnone [] c u rfl hc
        · rfl
      rw [List.cons_append, splitVs, hcut, hrest, List.reverse_cons, List.append_assoc]
      rfl

/-- A plain name is not cut by what follows it. -/
theorem PlainName.not_cut (hL : L.BlankLaws) {a : String} (ha : PlainName L a) {tail : List Char}
    {d : Char} (hd : L.isSpace d = true) {v w : List Char} {c : Char}
    (hsplit : a.toList = v ++ c :: w) (hc : L.isSpace c = true) :
    afterVs L ((w ++ d :: tail).dropWhile L.isSpace) = none := by
  have hne : w.dropWhile L.isSpace ≠ [] := by
    intro hall
    rw [List.dropWhile_eq_nil_iff] at hall
    have hlast : L.isSpace ((c :: w).getLast (List.cons_ne_nil c w)) = true := by
      rcases List.mem_cons.mp (List.getLast_mem (List.cons_ne_nil c w)) with h | h
      · rw [h, hc]
      · exact hall _ h
    rw [ha.last _ (by
      rw [hsplit, List.getLast?_append_of_ne_nil _ (List.cons_ne_nil c w)]
      exact List.getLast?_eq_some_getLast _)] at hlast
    cases hlast
  -- a whole word of the name comes first after the blank, and it is no vs
  have hvs : ¬ IsVs ((w.dropWhile L.isSpace).takeWhile fun c => !L.isSpace c) := by
    have hmem := mem_words_after hsplit hc (firstWord_mem L.isSpace w hne)
    simpa using ha.noVs _ hmem
  have hword : ∀ e ∈ (w.dropWhile L.isSpace).takeWhile (fun c => !L.isSpace c),
      L.isSpace e = false := by
    intro e he
    simpa using List.mem_takeWhile_imp he
  rw [List.dropWhile_append, if_neg (by simpa using hne)]
  have hw := List.takeWhile_append_dropWhile (p := fun c => !L.isSpace c)
    (l := w.dropWhile L.isSpace)
  rw [← hw, List.append_assoc]
  cases hrest : (w.dropWhile L.isSpace).dropWhile fun c => !L.isSpace c with
  | nil => exact afterVs_word hL hd hword hvs
  | cons e rest =>
      refine afterVs_word hL ?_ hword hvs
      have hhead := List.head?_dropWhile_not (fun c => !L.isSpace c) (w.dropWhile L.isSpace)
      rw [hrest] at hhead
      simpa using hhead

/-- Two plain names around a separator are what the title is cut into. -/
theorem splitVs_of_plain (hL : L.BlankLaws) {a b sep : String} (ha : PlainName L a)
    (hb : PlainName L b) (hsep : sep = " vs " ∨ sep = " vs. ") :
    splitVs L [] (a ++ sep ++ b).toList = some (a, b) := by
  have hv : L.isSpace 'v' = false := hL.letters 'v' (by decide)
  have hblank := hL.space
  have hafter : b.toList.dropWhile L.isSpace = b.toList := by
    cases hl : b.toList with
    | nil => rfl
    | cons c l => exact List.dropWhile_cons_of_neg (by simp [hb.first c (by rw [hl]; rfl)])
  obtain ⟨dot, hdot, htail⟩ : ∃ dot : List Char, (dot = [] ∨ dot = ['.']) ∧
      (a ++ sep ++ b).toList = a.toList ++ ' ' :: 'v' :: 's' :: (dot ++ ' ' :: b.toList) := by
    rcases hsep with rfl | rfl
    · exact ⟨[], Or.inl rfl, by simp⟩
    · exact ⟨['.'], Or.inr rfl, by simp⟩
  have hcut : afterVs L ('v' :: 's' :: (dot ++ ' ' :: b.toList)) = some b.toList := by
    rw [afterVs, if_pos (by decide)]
    rcases hdot with rfl | rfl <;> simp [hblank, hafter]
  rw [htail, splitVs_append fun v c w hsplit hc => ha.not_cut hL hblank hsplit hc]
  rw [splitVs, hblank, if_pos rfl, List.dropWhile_cons_of_neg (by simp [hv]), hcut]
  simp

theorem titleReads_of_plain (hL : L.BlankLaws) {a b sep : String} (ha : PlainName L a)
    (hb : PlainName L b) (hsep : sep = " vs " ∨ sep = " vs. ") :
    TitleReads L (a ++ sep ++ b) a b := by
  have hstrip : L.strip (a ++ sep ++ b) = a ++ sep ++ b := by
    have hane : a.toList ≠ [] := by simpa using ha.ne_empty
    have hbne : b.toList ≠ [] := by simpa using hb.ne_empty
    apply Locale.strip_of_ends
    · intro c hc
      rw [String.toList_append, String.toList_append, List.append_assoc,
        List.head?_append_of_ne_nil _ hane] at hc
      exact ha.first c hc
    · intro c hc
      rw [String.toList_append, List.getLast?_append_of_ne_nil _ hbne] at hc
      exact hb.last c hc
  refine ⟨a, b, ?_, Or.inl ⟨?_, ?_⟩⟩
  · rw [hstrip, splitVs_of_plain hL ha hb hsep]
  · rw [Locale.strip_of_ends ha.first ha.last]
  · rw [Locale.strip_of_ends hb.first hb.last]

end Cut

/-! ## The sides of a match -/

section Sides

variable {L} {p q : Participant}

/-- One turn of the loop over the markets. -/
theorem headToHeadSides_concat (markets : List KalshiMarket) (m : KalshiMarket) :
    headToHeadSides L p q (markets ++ [m]) =
      if subTitleCode L (textOf m.yesSubTitle) = none ∨ textOf m.ticker = "" then
        headToHeadSides L p q markets
      else if subTitleCode L (textOf m.yesSubTitle) = some p.code then
        (headToHeadSides L p q markets).set p.code (textOf m.ticker ++ ":YES")
      else if subTitleCode L (textOf m.yesSubTitle) = some q.code then
        (headToHeadSides L p q markets).set q.code (textOf m.ticker ++ ":YES")
      else headToHeadSides L p q markets := by
  unfold subTitleCode
  rw [headToHeadSides, List.foldl_concat, ← headToHeadSides]
  cases (words L (textOf m.yesSubTitle)).getLast? with
  | none => simp
  | some word => simp

/-- A side is a player's, from a market whose sub-title is coded so. -/
theorem exists_market_of_side {markets : List KalshiMarket} {code : String} {o : OutcomeId}
    (h : (headToHeadSides L p q markets).get? code = some o) :
    (code = p.code ∨ code = q.code) ∧ ∃ m ∈ markets, o = textOf m.ticker ++ ":YES" ∧
      subTitleCode L (textOf m.yesSubTitle) = some code := by
  induction markets using List.reverseRecOn with
  | nil => cases h
  | append_singleton markets m ih =>
      have hearlier : (headToHeadSides L p q markets).get? code = some o →
          (code = p.code ∨ code = q.code) ∧ ∃ m' ∈ markets ++ [m],
            o = textOf m'.ticker ++ ":YES" ∧
              subTitleCode L (textOf m'.yesSubTitle) = some code := by
        intro h
        obtain ⟨hplayer, m', hm', hrest⟩ := ih h
        exact ⟨hplayer, m', List.mem_append_left _ hm', hrest⟩
      have hset : ∀ key, (key = p.code ∨ key = q.code) →
          subTitleCode L (textOf m.yesSubTitle) = some key →
          ((headToHeadSides L p q markets).set key (textOf m.ticker ++ ":YES")).get? code =
            some o →
          (code = p.code ∨ code = q.code) ∧ ∃ m' ∈ markets ++ [m],
            o = textOf m'.ticker ++ ":YES" ∧
              subTitleCode L (textOf m'.yesSubTitle) = some code := by
        intro key hplayer hkey h
        rw [Dict.get?_set] at h
        split at h
        · rename_i hcode
          cases h
          exact ⟨hcode ▸ hplayer, m, List.mem_append_right _ List.mem_cons_self, rfl,
            hcode ▸ hkey⟩
        · exact hearlier h
      rw [headToHeadSides_concat] at h
      split at h
      · -- the market has no code or no ticker
        exact hearlier h
      · split at h
        · rename_i hkey
          exact hset _ (Or.inl rfl) hkey h
        · split at h
          · rename_i hkey
            exact hset _ (Or.inr rfl) hkey h
          · exact hearlier h

/-- A market whose sub-title is coded as a player is that player's side. -/
theorem headToHeadSides_set (markets : List KalshiMarket) {m : KalshiMarket} {code : String}
    (hticker : textOf m.ticker ≠ "") (hcode : subTitleCode L (textOf m.yesSubTitle) = some code)
    (hplayer : code = p.code ∨ code = q.code) :
    headToHeadSides L p q (markets ++ [m]) =
      (headToHeadSides L p q markets).set code (textOf m.ticker ++ ":YES") := by
  rw [headToHeadSides_concat, hcode, if_neg (by simp [hticker])]
  rcases hplayer with rfl | rfl
  · rw [if_pos rfl]
  · split
    · rename_i heq
      rw [Option.some.inj heq]
    · rw [if_pos rfl]

/-- Two markets coded as the two players are the two sides. -/
theorem sides_of_pair {m n : KalshiMarket} {c d : String} (hne : c ≠ d)
    (hm : textOf m.ticker ≠ "") (hn : textOf n.ticker ≠ "")
    (hc : subTitleCode L (textOf m.yesSubTitle) = some c)
    (hd : subTitleCode L (textOf n.yesSubTitle) = some d)
    (hplayers : (p.code = c ∧ q.code = d) ∨ (p.code = d ∧ q.code = c)) :
    (headToHeadSides L p q [m, n]).entries.length = 2 ∧
      (headToHeadSides L p q [m, n]).get? c = some (textOf m.ticker ++ ":YES") ∧
      (headToHeadSides L p q [m, n]).get? d = some (textOf n.ticker ++ ":YES") := by
  have hpc : c = p.code ∨ c = q.code := by
    rcases hplayers with h | h
    · exact Or.inl h.1.symm
    · exact Or.inr h.2.symm
  have hpd : d = p.code ∨ d = q.code := by
    rcases hplayers with h | h
    · exact Or.inr h.2.symm
    · exact Or.inl h.1.symm
  have hfirst : headToHeadSides L p q [m] = Dict.empty.set c (textOf m.ticker ++ ":YES") :=
    headToHeadSides_set [] hm hc hpc
  have hsecond : headToHeadSides L p q [m, n] =
      (Dict.empty.set c (textOf m.ticker ++ ":YES")).set d (textOf n.ticker ++ ":YES") := by
    rw [← hfirst]
    exact headToHeadSides_set [m] hn hd hpd
  have hnew : (Dict.empty.set c (textOf m.ticker ++ ":YES")).get? d = none := by
    rw [Dict.get?_set_ne _ (Ne.symm hne), Dict.get?_empty]
  rw [hsecond]
  refine ⟨?_, ?_, Dict.get?_set_self ..⟩
  · rw [Dict.entries_set_of_get?_none hnew]
    rfl
  · rw [Dict.get?_set_ne _ hne, Dict.get?_set_self]

end Sides

/-! ## The game of an event -/

section Event

variable {L}

theorem parseVsTitle_eq_some_iff {title : String} {p q : Participant} :
    parseVsTitle L title = some (p, q) ↔
      ∃ x y, splitVs L [] (L.strip title).toList = some (x, y) ∧
        p = ⟨lastNameCode L (L.strip x), L.strip x⟩ ∧
        q = ⟨lastNameCode L (L.strip y), L.strip y⟩ ∧
        lastNameCode L (L.strip x) ≠ "" ∧ lastNameCode L (L.strip y) ≠ "" ∧
        lastNameCode L (L.strip x) ≠ lastNameCode L (L.strip y) := by
  constructor
  · intro h
    rw [parseVsTitle, Option.bind_eq_bind, Option.bind_eq_some_iff] at h
    obtain ⟨⟨x, y⟩, hcut, hpair⟩ := h
    simp only [Option.ite_none_left_eq_some, Option.some.injEq, Prod.mk.injEq, not_or] at hpair
    obtain ⟨hcodes, rfl, rfl⟩ := hpair
    exact ⟨x, y, hcut, rfl, rfl, hcodes⟩
  · rintro ⟨x, y, hcut, rfl, rfl, hcodes⟩
    have hnot : ¬(lastNameCode L (L.strip x) = "" ∨ lastNameCode L (L.strip y) = "" ∨
        lastNameCode L (L.strip x) = lastNameCode L (L.strip y)) := by
      rw [not_or, not_or]
      exact hcodes
    simp only [parseVsTitle, hcut, Option.bind_eq_bind, Option.bind_some, hnot, if_false]

variable {z : Calendar} {client : Client} {sport series : String} {event : KalshiEvent}
  {position : ℕ} {title tk : String} {ra : Option (Option ℚ)} {markets : List KalshiMarket}

/-- An event whose markets are answered is a game where its title names two
players and its markets are two sides. -/
theorem exists_game_iff {P : Dict String OutcomeId → Prop} (hticker : event.eventTicker = some tk)
    (hne : tk ≠ "") (htitle : event.title = some title)
    (hreply : getWithRetry (client.kalshiMarkets series position tk) =
      .answered 200 ra (some markets)) :
    (∃ game, (parseKalshiTennisEvent L z client sport series event position).value =
        some (some game) ∧ P game.outcomeIds) ↔
      ∃ p q, parseVsTitle L title = some (p, q) ∧
        (headToHeadSides L p q markets).entries.length = 2 ∧
        P (headToHeadSides L p q markets) := by
  have hread : ∀ target, (readOrSkip .tennisMarkets target
      (getWithRetry (client.kalshiMarkets series position tk))).value = some (some markets) := by
    intro target
    rw [hreply]
    rfl
  have htext : textOf event.eventTicker = tk := by rw [hticker]; rfl
  have htitleText : textOf event.title = title := by rw [htitle]; rfl
  simp only [parseKalshiTennisEvent, htext, htitleText, hne, if_false]
  cases hparse : parseVsTitle L title with
  | none => simp
  | some pair =>
      obtain ⟨p, q⟩ := pair
      simp only [Logged.value_bind, hread, Option.bind_some, Option.getD_some]
      by_cases hlen : (headToHeadSides L p q markets).entries.length = 2
      · rw [if_neg (not_not.mpr hlen)]
        constructor
        · rintro ⟨game, hgame, hP⟩
          cases hgame
          exact ⟨p, q, rfl, hlen, hP⟩
        · rintro ⟨p', q', hpair, -, hP⟩
          cases hpair
          exact ⟨_, rfl, hP⟩
      · rw [if_pos hlen]
        constructor
        · rintro ⟨game, hgame, -⟩
          cases hgame
        · rintro ⟨p', q', hpair, hlen', -⟩
          cases hpair
          exact absurd hlen' hlen

/-- Both players are coded, and coded alike: a code each, the title cut between
them, and on each name's last word folding changes nothing but the case. -/
structure PlayersAlike (L : Locale) (title a b : String) : Prop where
  coded : lastNameCode L a ≠ "" ∧ lastNameCode L b ≠ ""
  title : TitleReads L title a b
  markets : CodedAlike L a ∧ CodedAlike L b

/-- Two names with the codes of a title's players are coded, and the title is
cut between them. -/
theorem titleReads_of_players {a b : String} {p q : Participant}
    (hcodes : lastNameCode L a ≠ lastNameCode L b) (hparse : parseVsTitle L title = some (p, q))
    (hA : lastNameCode L a = p.code ∨ lastNameCode L a = q.code)
    (hB : lastNameCode L b = p.code ∨ lastNameCode L b = q.code) :
    (lastNameCode L a ≠ "" ∧ lastNameCode L b ≠ "") ∧ TitleReads L title a b := by
  obtain ⟨x, y, hcut, hp, hq, hx, hy, -⟩ := parseVsTitle_eq_some_iff.mp hparse
  have hpx : p.code = lastNameCode L (L.strip x) := by rw [hp]
  have hqy : q.code = lastNameCode L (L.strip y) := by rw [hq]
  have hplayer : ∀ code, code = p.code ∨ code = q.code → code ≠ "" := by
    rintro code (h | h)
    · rw [h, hpx]
      exact hx
    · rw [h, hqy]
      exact hy
  refine ⟨⟨hplayer _ hA, hplayer _ hB⟩, x, y, hcut, ?_⟩
  rw [hpx, hqy] at hA hB
  rcases hA with hA | hA
  · rcases hB with hB | hB
    · exact absurd (hA.trans hB.symm) hcodes
    · exact Or.inl ⟨hA.symm, hB.symm⟩
  · rcases hB with hB | hB
    · exact Or.inr ⟨hB.symm, hA.symm⟩
    · exact absurd (hA.trans hB.symm) hcodes

/-- A title that is cut between two coded names has players of their codes. -/
theorem players_of_titleReads {a b : String} (hcodes : lastNameCode L a ≠ lastNameCode L b)
    (hcoded : lastNameCode L a ≠ "" ∧ lastNameCode L b ≠ "") (h : TitleReads L title a b) :
    ∃ p q, parseVsTitle L title = some (p, q) ∧
      ((p.code = lastNameCode L a ∧ q.code = lastNameCode L b) ∨
        (p.code = lastNameCode L b ∧ q.code = lastNameCode L a)) := by
  obtain ⟨x, y, hcut, hxy⟩ := h
  have hread : lastNameCode L (L.strip x) ≠ "" ∧ lastNameCode L (L.strip y) ≠ "" ∧
      lastNameCode L (L.strip x) ≠ lastNameCode L (L.strip y) := by
    rcases hxy with ⟨hx, hy⟩ | ⟨hx, hy⟩
    · rw [hx, hy]
      exact ⟨hcoded.1, hcoded.2, hcodes⟩
    · rw [hx, hy]
      exact ⟨hcoded.2, hcoded.1, hcodes.symm⟩
  obtain ⟨p, q, hparse, hpx, hqy⟩ : ∃ p q, parseVsTitle L title = some (p, q) ∧
      p.code = lastNameCode L (L.strip x) ∧ q.code = lastNameCode L (L.strip y) := by
    refine ⟨⟨lastNameCode L (L.strip x), L.strip x⟩,
      ⟨lastNameCode L (L.strip y), L.strip y⟩, ?_, by dsimp only, by dsimp only⟩
    exact parseVsTitle_eq_some_iff.mpr ⟨x, y, hcut, rfl, rfl, hread⟩
  refine ⟨p, q, hparse, ?_⟩
  rw [hpx, hqy]
  exact hxy

/-- The game of an event of two players has each one's code at that one's
market exactly where the players are coded alike; a title of two plain names
is always cut between them. -/
theorem head_to_head_iff (z : Calendar) (client : Client) (sport series : String)
    (event : KalshiEvent) (position : ℕ) {a b sep tA tB : String} {mA mB : KalshiMarket}
    (hticker : event.eventTicker = some tk) (hne : tk ≠ "")
    (hsep : sep = " vs " ∨ sep = " vs. ")
    (htitle : event.title = some (a ++ sep ++ b)) (hcodes : lastNameCode L a ≠ lastNameCode L b)
    (hreply : getWithRetry (client.kalshiMarkets series position tk) =
      .answered 200 ra (some markets))
    (hmarkets : markets = [mA, mB] ∨ markets = [mB, mA])
    (hmA : mA.ticker = some tA ∧ mA.yesSubTitle = some a)
    (hmB : mB.ticker = some tB ∧ mB.yesSubTitle = some b)
    (htickers : tA ≠ "" ∧ tB ≠ "" ∧ tA ≠ tB) :
    ((∃ game, (parseKalshiTennisEvent L z client sport series event position).value =
        some (some game) ∧ game.outcomeIds.get? (lastNameCode L a) = some (tA ++ ":YES") ∧
        game.outcomeIds.get? (lastNameCode L b) = some (tB ++ ":YES")) ↔
      PlayersAlike L (a ++ sep ++ b) a b) ∧
      (L.BlankLaws → PlainName L a → PlainName L b → TitleReads L (a ++ sep ++ b) a b) := by
  refine ⟨?_, fun hL ha hb => titleReads_of_plain hL ha hb hsep⟩
  have htA : textOf mA.ticker = tA := by rw [hmA.1]; rfl
  have htB : textOf mB.ticker = tB := by rw [hmB.1]; rfl
  have hsA : textOf mA.yesSubTitle = a := by rw [hmA.2]; rfl
  have hsB : textOf mB.yesSubTitle = b := by rw [hmB.2]; rfl
  have hmem : ∀ m ∈ markets, m = mA ∨ m = mB := by
    rcases hmarkets with rfl | rfl <;> simp [or_comm]
  rw [exists_game_iff (P := fun outcomeIds =>
    outcomeIds.get? (lastNameCode L a) = some (tA ++ ":YES") ∧
      outcomeIds.get? (lastNameCode L b) = some (tB ++ ":YES")) hticker hne htitle hreply]
  constructor
  · rintro ⟨p, q, hparse, -, hgetA, hgetB⟩
    obtain ⟨hplayerA, m, hm, hoA, hcodeA⟩ := exists_market_of_side hgetA
    obtain ⟨hplayerB, n, hn, hoB, hcodeB⟩ := exists_market_of_side hgetB
    -- a side's outcome id names the market it comes from
    have hmeq : m = mA := by
      rcases hmem m hm with h | rfl
      · exact h
      · exact absurd (by simpa [htB] using hoA) htickers.2.2
    have hneq : n = mB := by
      rcases hmem n hn with rfl | h
      · exact absurd (by simpa [htA] using hoB.symm) htickers.2.2
      · exact h
    rw [hmeq, hsA] at hcodeA
    rw [hneq, hsB] at hcodeB
    obtain ⟨hcoded, hreads⟩ := titleReads_of_players hcodes hparse hplayerA hplayerB
    exact ⟨hcoded, hreads, (codedAlike_iff L hcoded.1).mpr hcodeA,
      (codedAlike_iff L hcoded.2).mpr hcodeB⟩
  · rintro ⟨hcoded, hreads, halikeA, halikeB⟩
    have hcodeA : subTitleCode L (textOf mA.yesSubTitle) = some (lastNameCode L a) := by
      rw [hsA, (codedAlike_iff L hcoded.1).mp halikeA]
    have hcodeB : subTitleCode L (textOf mB.yesSubTitle) = some (lastNameCode L b) := by
      rw [hsB, (codedAlike_iff L hcoded.2).mp halikeB]
    obtain ⟨p, q, hparse, hplayers⟩ := players_of_titleReads hcodes hcoded hreads
    refine ⟨p, q, hparse, ?_⟩
    have hneA : textOf mA.ticker ≠ "" := by rw [htA]; exact htickers.1
    have hneB : textOf mB.ticker ≠ "" := by rw [htB]; exact htickers.2.1
    rcases hmarkets with rfl | rfl
    · obtain ⟨hlen, hgetA, hgetB⟩ := sides_of_pair hcodes hneA hneB hcodeA hcodeB hplayers
      exact ⟨hlen, by rw [hgetA, htA], by rw [hgetB, htB]⟩
    · obtain ⟨hlen, hgetB, hgetA⟩ :=
        sides_of_pair (Ne.symm hcodes) hneB hneA hcodeB hcodeA hplayers.symm
      exact ⟨hlen, by rw [hgetA, htA], by rw [hgetB, htB]⟩

end Event

namespace Final

def day : Date := (Date.ofYmd? 2026 8 5).get (by decide)

def calendar : Calendar := ⟨day, day, 0⟩

def event (a b : String) : KalshiEvent := ⟨some "KXWTAMATCH-26AUG05", some (a ++ " vs " ++ b)⟩

/-- A venue that lists the two sides of a match. -/
def client (a b : String) : Client where
  kalshiEvents _ _ := .raised
  kalshiMarkets _ _ _ _ := .answered 200 none
    (some [{ ticker := some "KXWTAMATCH-26AUG05-A", yesSubTitle := some a },
      { ticker := some "KXWTAMATCH-26AUG05-B", yesSubTitle := some b }])
  leagueEvents _ := .raised

/-- What the match of two players is read as. -/
def read (a b : String) : Option (Option VenueGame) :=
  (parseKalshiTennisEvent latinLocale calendar (client a b) "wta" "KXWTAMATCH" (event a b) 0).value

end Final

theorem not_isVs_of_length {word : String} (h : 3 < word.toList.length) : ¬ IsVs word.toList := by
  rintro ⟨v, s, -, -, hword | hword⟩ <;>
  · rw [hword] at h
    simp at h

/-- No blank where there may be a character, checked. -/
theorem no_blank_of_all {o : Option Char} (h : o.all (fun c => !L.isSpace c) = true) :
    ∀ c ∈ o, L.isSpace c = false := by
  intro c hc
  rw [Option.mem_def] at hc
  simpa [hc] using h

open Final in
theorem head_to_head_iff_gauff : ∃ game, read "Jessica Pegula" "Coco Gauff" = some (some game) ∧
    game.outcomeIds.get? (lastNameCode latinLocale "Jessica Pegula") =
      some ("KXWTAMATCH-26AUG05-A" ++ ":YES") ∧
    game.outcomeIds.get? (lastNameCode latinLocale "Coco Gauff") =
      some ("KXWTAMATCH-26AUG05-B" ++ ":YES") := by
  have hletters : (['v', 'V', 's', 'S', 'ſ'].all fun c => !latinLocale.isSpace c) = true := by
    decide
  have hL : latinLocale.BlankLaws :=
    ⟨by decide, fun c hc => by simpa using List.all_eq_true.mp hletters c hc⟩
  have hpegula : PlainName latinLocale "Jessica Pegula" := by
    refine ⟨by decide, no_blank_of_all _ (by decide), no_blank_of_all _ (by decide), ?_⟩
    have hlong : ∀ word ∈ words latinLocale "Jessica Pegula", 3 < word.toList.length := by
      decide +kernel
    exact fun word hword => not_isVs_of_length (hlong word hword)
  have hgauff : PlainName latinLocale "Coco Gauff" := by
    refine ⟨by decide, no_blank_of_all _ (by decide), no_blank_of_all _ (by decide), ?_⟩
    have hlong : ∀ word ∈ words latinLocale "Coco Gauff", 3 < word.toList.length := by
      decide +kernel
    exact fun word hword => not_isVs_of_length (hlong word hword)
  have h := head_to_head_iff (L := latinLocale) calendar (client "Jessica Pegula" "Coco Gauff")
    "wta" "KXWTAMATCH" (event "Jessica Pegula" "Coco Gauff") 0 rfl (by decide) (Or.inl rfl) rfl
    (by decide +kernel) rfl (Or.inl rfl) ⟨rfl, rfl⟩ ⟨rfl, rfl⟩ ⟨by decide, by decide, by decide⟩
  exact h.1.mpr ⟨by decide +kernel, h.2 hL hpegula hgauff, by rw [CodedAlike]; decide +kernel,
    by rw [CodedAlike]; decide +kernel⟩

open Final in
/-- A last name that folding respells is one code in the title and another at
the market, and the match is dropped. -/
theorem swiatek_dropped :
    lastNameCode latinLocale "Iga Świątek" ≠ lastNameCode latinLocale "Coco Gauff" ∧
      (parseVsTitle latinLocale (textOf (event "Iga Świątek" "Coco Gauff").title)).isSome ∧
      read "Iga Świątek" "Coco Gauff" = some none := by
  refine ⟨by decide +kernel, by decide +kernel, by decide +kernel⟩

end Arbys
