import Mathlib.Data.List.Infix
import Arbys.Lib.Base64
import Arbys.Lib.DecimalArith

/-!
# Reading the Kalshi key

`_repair_pem`, `_parse_kalshi_pem`, `load_kalshi_private_key` and
`kalshi_ws_creds_from_env` of `adapters/kalshi_ws.py`. A PEM is its markers and
the base64 between them; on its way through a secret store it loses its line
breaks, has them written out as a backslash and an `n`, or is encoded whole. A
key that came through any of these is read as if nothing had happened to it.
Texts are lists of characters; `KeyLib` is what the module has of the
cryptography library.
-/

namespace Arbys

namespace KalshiKey

open DecimalArith (isSpace)

abbrev Text := List Char

/-! ## The markers -/

def dashes : Text := ['-', '-', '-', '-', '-']

/-- `-----BEGIN`. -/
def beginWord : Text := dashes ++ ['B', 'E', 'G', 'I', 'N']

/-- `-----BEGIN {label}-----`. -/
def beginMarker (label : Text) : Text := beginWord ++ ' ' :: label ++ dashes

/-- `-----END {label}-----`. -/
def endMarker (label : Text) : Text := dashes ++ ['E', 'N', 'D', ' '] ++ label ++ dashes

/-- `[A-Z ]`. -/
def isLabel (c : Char) : Bool := decide ('A' ≤ c ∧ c ≤ 'Z') || decide (c = ' ')

/-! ## `_PEM_RE.search` -/

/-- `(.*?)` up to a literal: the shortest text that the literal follows. -/
def upTo (close : Text) : Text → Option Text
  | [] => if close = [] then some [] else none
  | c :: cs =>
      if close <+: c :: cs then some [] else (upTo close cs).map (c :: ·)

/-- `([A-Z ]+?)-----(.*?)-----END \\1-----`, after `label` has been read of the
first group. -/
def labelled (label : Text) : Text → Option (Text × Text)
  | [] => none
  | c :: cs =>
      if isLabel c then
        let label := label ++ [c]
        let here :=
          if dashes <+: cs then
            (upTo (endMarker label) (cs.drop dashes.length)).map fun body => (label, body)
          else none
        here.or (labelled label cs)
      else none

/-- `_PEM_RE` at the start of a text. -/
def matchHere (text : Text) : Option (Text × Text) :=
  if beginWord ++ [' '] <+: text then labelled [] (text.drop (beginWord ++ [' ']).length) else none

/-- `_PEM_RE.search`: the groups of the leftmost match. -/
def search : Text → Option (Text × Text)
  | [] => matchHere []
  | c :: cs => (matchHere (c :: cs)).or (search cs)

/-! ## `_repair_pem` -/

/-- `"".join(text.split())`. -/
def squeeze (text : Text) : Text := text.filter fun c => !isSpace c

/-- `[body[i : i + 64] for i in range(0, len(body), 64)]`. -/
def lines (body : Text) : List Text :=
  (List.range ((body.length + 63) / 64)).map fun i => (body.drop (64 * i)).take 64

/-- A PEM as the format has it. -/
def canonical (label body : Text) : Text :=
  ['\n'].intercalate ([beginMarker label] ++ lines body ++ [endMarker label, []])

/-- `_repair_pem`. -/
def repairPem (data : Text) : Option Text :=
  match search data with
  | none => none
  | some (label, body) =>
      let body := squeeze body
      if body = [] then none else some (canonical label body)

/-! ## `_parse_kalshi_pem` -/

inductive LoadError where
  | valueError
  | typeError
  | other
  deriving DecidableEq

/-- What the cryptography library is asked: `load_pem_private_key`, and
whether a key is an RSA key. -/
structure KeyLib (Key : Type) where
  loadPem : Text → Except LoadError Key
  isRsa : Key → Bool

/-- `data.replace("\\n", "\n")` with the first a backslash and an `n`. -/
def unescape : Text → Text
  | '\\' :: 'n' :: cs => '\n' :: unescape cs
  | c :: cs => c :: unescape cs
  | [] => []

/-- The line breaks put back where they are written out. -/
def unflatten (data : Text) : Text :=
  if ['\\', 'n'] <:+: data ∧ '\n' ∉ data then unescape data else data

/-- `base64.b64decode("".join(data.split()), validate=True).decode("utf-8")`;
a character outside ASCII is outside the alphabet. -/
def b64Text (data : Text) : Option Text := do
  let bytes ← Base64.decode (squeeze data)
  let chars ← (ByteArray.mk bytes.toArray).utf8Decode?
  pure chars.toList

/-- A PEM that was encoded whole is decoded. -/
def unwrap (data : Text) : Text :=
  if beginWord <:+: data then data
  else
    match b64Text data with
    | some decoded => if beginWord <:+: decoded then decoded else data
    | none => data

variable {Key : Type}

/-- `_parse_kalshi_pem`. -/
def parseKalshiPem (lib : KeyLib Key) (data : Text) : Except LoadError Key := do
  let data := unwrap (unflatten data)
  let key ←
    match lib.loadPem data with
    | .error .valueError =>
        match repairPem data with
        | none => .error .valueError
        | some repaired => lib.loadPem repaired
    | loaded => loaded
  if lib.isRsa key then pure key else .error .typeError

/-! ## `kalshi_ws_creds_from_env` -/

/-- The three variables, `none` where one is not set. -/
structure KeyEnv where
  apiKeyId : Option String := none
  privateKey : Option String := none
  privateKeyPath : Option String := none

/-- What is set, and not empty. -/
def given (value : Option String) : Option String := value.filter (· ≠ "")

theorem given_ofList {text : Text} (h : text ≠ []) :
    given (some (String.ofList text)) = some (String.ofList text) := by
  have hne : String.ofList text ≠ "" := fun heq => h (String.ofList_eq_empty_iff.mp heq)
  simp [given, hne]

/-- The `RuntimeError`s: a key without its id, an id without a key, and a key
that could not be loaded from its source. -/
inductive CredsError where
  | noKeyId
  | noKey
  | notLoaded (source : String)
  deriving DecidableEq

/-- `kalshi_ws_creds_from_env`. `readText` reads a key file. -/
def kalshiWsCredsFromEnv (lib : KeyLib Key) (readText : String → Except LoadError Text)
    (env : KeyEnv) : Except CredsError (Option (String × Key)) :=
  match given env.apiKeyId, given env.privateKey, given env.privateKeyPath with
  | none, none, none => .ok none
  | none, _, _ => .error .noKeyId
  | some _, none, none => .error .noKey
  | some keyId, some inline, _ =>
      match parseKalshiPem lib inline.toList with
      | .ok key => .ok (some (keyId, key))
      | .error _ => .error (.notLoaded "KALSHI_PRIVATE_KEY")
  | some keyId, none, some pemPath =>
      match readText pemPath >>= parseKalshiPem lib with
      | .ok key => .ok (some (keyId, key))
      | .error _ => .error (.notLoaded ("KALSHI_PRIVATE_KEY_PATH (" ++ pemPath ++ ")"))

/-! ## What can happen to a key -/

/-- The whitespace between the markers, and around them, is any. -/
structure Framed (label body text : Text) : Prop where
  parts : ∃ pre w post, text = pre ++ beginMarker label ++ w ++ endMarker label ++ post ∧
    squeeze w = body ∧ (∀ c ∈ pre, isSpace c = true) ∧ ∀ c ∈ post, isSpace c = true

/-- The line breaks of a text written out. -/
def escape (text : Text) : Text := text.flatMap fun c => if c = '\n' then ['\\', 'n'] else [c]

/-- A key as it may arrive. -/
inductive Mangled (label body : Text) : Text → Prop where
  | spaced {text : Text} (h : Framed label body text) : Mangled label body text
  | escaped {text : Text} (h : Framed label body text) (hbreak : '\n' ∈ text) :
      Mangled label body (escape text)
  | encoded {text data : Text} (h : Framed label body text)
      (hdata : squeeze data = Base64.encode text.utf8Encode.data.toList) :
      Mangled label body data

/-- A PEM label, and a body in base64. -/
structure Pem (label body : Text) : Prop where
  label_ne : label ≠ []
  label : ∀ c ∈ label, isLabel c = true
  body_ne : body ≠ []
  body : ∀ c ∈ body, c ∈ Base64.alphabet ∨ c = Base64.pad

/-- The library loads the key from the PEM; from a text with other whitespace
it loads the same key, or says that the text is malformed. -/
structure Loads (lib : KeyLib Key) (label body : Text) (key : Key) : Prop where
  canonical : lib.loadPem (canonical label body) = .ok key
  isRsa : lib.isRsa key = true
  framed : ∀ text, Framed label body text →
    lib.loadPem text = .ok key ∨ lib.loadPem text = .error .valueError

/-! ### Characters -/

theorem not_isSpace_of_base64 {c : Char} (h : c ∈ Base64.alphabet ∨ c = Base64.pad) :
    isSpace c = false ∧ c ≠ '-' ∧ c ≠ '\\' ∧ c ≠ '\n' := by
  have hall : (Base64.pad :: Base64.alphabet).all (fun c =>
      !isSpace c && c != '-' && c != '\\' && c != '\n') = true := by decide +kernel
  have hc := List.all_eq_true.mp hall c (List.mem_cons.mpr h.symm)
  simpa [and_assoc] using hc

theorem ne_of_isSpace {c : Char} (h : isSpace c = true) : c ≠ '-' ∧ c ≠ '\\' := by
  constructor
  · rintro rfl
    revert h
    decide
  · rintro rfl
    revert h
    decide

theorem ne_of_isLabel {c : Char} (h : isLabel c = true) : c ≠ '-' ∧ c ≠ '\\' := by
  constructor
  · rintro rfl
    revert h
    decide
  · rintro rfl
    revert h
    decide

theorem mem_squeeze {text : Text} {c : Char} :
    c ∈ squeeze text ↔ c ∈ text ∧ isSpace c = false := by
  simp [squeeze]

/-- Between the markers is whitespace and base64. -/
theorem ne_of_squeeze {w body : Text} (hbody : ∀ c ∈ body, c ∈ Base64.alphabet ∨ c = Base64.pad)
    (hw : squeeze w = body) {c : Char} (hc : c ∈ w) : c ≠ '-' ∧ c ≠ '\\' := by
  cases hspace : isSpace c with
  | true => exact ne_of_isSpace hspace
  | false =>
      have hmem : c ∈ body := by
        rw [← hw]
        exact mem_squeeze.mpr ⟨hc, hspace⟩
      obtain ⟨-, hdash, hslash, -⟩ := not_isSpace_of_base64 (hbody c hmem)
      exact ⟨hdash, hslash⟩

/-! ### The search -/

/-- The shortest text before a literal that starts with a dash has no dash. -/
theorem upTo_append {close : Text} (hclose : close.head? = some '-') {w : Text}
    (hw : ∀ c ∈ w, c ≠ '-') (post : Text) : upTo close (w ++ close ++ post) = some w := by
  obtain ⟨rest, rfl⟩ : ∃ rest, close = '-' :: rest := by
    cases close with
    | nil => cases hclose
    | cons d rest =>
        cases hclose
        exact ⟨rest, rfl⟩
  induction w with
  | nil =>
      have hpre : '-' :: rest <+: '-' :: (rest ++ post) := by simp
      show upTo _ ('-' :: (rest ++ post)) = _
      rw [upTo, if_pos hpre]
  | cons c w ih =>
      have hnot : ¬ '-' :: rest <+: c :: (w ++ '-' :: rest ++ post) := by
        rw [List.cons_prefix_cons]
        exact fun h => hw c List.mem_cons_self h.1.symm
      show upTo _ (c :: (w ++ '-' :: rest ++ post)) = _
      rw [upTo, if_neg hnot, ih fun d hd => hw d (List.mem_cons_of_mem _ hd)]
      rfl

/-- The label is read up to its dashes. -/
theorem labelled_append {u : Text} (hne : u ≠ []) (hu : ∀ c ∈ u, isLabel c = true)
    (label : Text) {rest body : Text} (hbody : upTo (endMarker (label ++ u)) rest = some body) :
    labelled label (u ++ dashes ++ rest) = some (label ++ u, body) := by
  induction u generalizing label with
  | nil => exact absurd rfl hne
  | cons c u ih =>
      rw [List.append_assoc, List.cons_append, labelled, if_pos (hu c List.mem_cons_self)]
      cases u with
      | nil =>
          have hpre : dashes <+: [] ++ (dashes ++ rest) := ⟨rest, rfl⟩
          have hdrop : ([] ++ (dashes ++ rest)).drop dashes.length = rest := List.drop_left
          simp only [if_pos hpre, hdrop, hbody, Option.map_some, Option.some_or]
      | cons d u =>
          have hd : d ≠ '-' := (ne_of_isLabel (hu d (by simp))).1
          have hnot : ¬ dashes <+: d :: u ++ (dashes ++ rest) := by
            rw [dashes, List.cons_append, List.cons_prefix_cons]
            exact fun h => hd h.1.symm
          have hrest := ih (List.cons_ne_nil d u) (fun a ha => hu a (List.mem_cons_of_mem _ ha))
            (label ++ [c]) (by rw [List.append_assoc]; exact hbody)
          simp only [if_neg hnot, Option.none_or]
          rw [← List.append_assoc, hrest, List.append_assoc]
          rfl

/-- Nothing is found where no dash stands. -/
theorem search_append {pre : Text} (hpre : ∀ c ∈ pre, c ≠ '-') (rest : Text) :
    search (pre ++ rest) = search rest := by
  induction pre with
  | nil => rfl
  | cons c pre ih =>
      have hnot : matchHere (c :: (pre ++ rest)) = none := by
        apply if_neg
        rw [beginWord, dashes, List.cons_append, List.cons_append, List.cons_prefix_cons]
        exact fun h => hpre c List.mem_cons_self h.1.symm
      rw [List.cons_append, search, hnot, Option.none_or]
      exact ih fun d hd => hpre d (List.mem_cons_of_mem _ hd)

/-- What is found at the start of a text is found. -/
theorem search_of_matchHere {text : Text} {found : Text × Text}
    (h : matchHere text = some found) : search text = some found := by
  cases text with
  | nil => exact h
  | cons c cs => rw [search, h, Option.some_or]

section Framed

variable {label body text : Text}

/-- **What the search finds.** -/
theorem search_framed {w pre : Text} (post : Text) (hne : label ≠ [])
    (hlabel : ∀ c ∈ label, isLabel c = true) (hw : ∀ c ∈ w, c ≠ '-')
    (hpre : ∀ c ∈ pre, c ≠ '-') :
    search (pre ++ beginMarker label ++ w ++ endMarker label ++ post) = some (label, w) := by
  have hend : (endMarker label).head? = some '-' := rfl
  have hbody : upTo (endMarker ([] ++ label)) (w ++ endMarker label ++ post) = some w :=
    upTo_append hend hw post
  have hlabelled := labelled_append hne hlabel [] hbody
  have hsplit : pre ++ beginMarker label ++ w ++ endMarker label ++ post =
      pre ++ (beginWord ++ [' '] ++ (label ++ dashes ++ (w ++ endMarker label ++ post))) := by
    simp [beginMarker]
  rw [hsplit, search_append hpre]
  apply search_of_matchHere
  rw [matchHere, if_pos (List.prefix_append _ _), List.drop_left]
  exact hlabelled

/-- **The repair**: whatever became of the whitespace, what comes out is the
PEM as the format has it. -/
theorem repairPem_framed (hpem : Pem label body) (h : Framed label body text) :
    repairPem text = some (canonical label body) := by
  obtain ⟨pre, w, post, rfl, hw, hpre, -⟩ := h.parts
  have hfound := search_framed post hpem.label_ne hpem.label
    (fun c hc => (ne_of_squeeze hpem.body hw hc).1) (fun c hc => (ne_of_isSpace (hpre c hc)).1)
  rw [repairPem, hfound]
  simp only [hw, if_neg hpem.body_ne]

/-! ### The lines of a PEM -/

/-- The lines put together are the body. -/
theorem flatten_lines (body : Text) : (lines body).flatten = body := by
  have htake : ∀ n, ((List.range n).map fun i => (body.drop (64 * i)).take 64).flatten =
      body.take (64 * n) := by
    intro n
    induction n with
    | zero => rfl
    | succ n ih =>
        rw [List.range_succ, List.map_append, List.flatten_append, ih, Nat.mul_succ,
          List.take_add]
        simp
  rw [lines, htake]
  apply List.take_of_length_le
  omega

theorem squeeze_append (a b : Text) : squeeze (a ++ b) = squeeze a ++ squeeze b :=
  List.filter_append ..

/-- A body has no whitespace of its own. -/
theorem squeeze_body (hbody : ∀ c ∈ body, c ∈ Base64.alphabet ∨ c = Base64.pad) :
    squeeze body = body :=
  List.filter_eq_self.mpr fun c hc => by rw [(not_isSpace_of_base64 (hbody c hc)).1]; rfl

/-- Whatever whitespace ends the lines of a text goes. -/
theorem squeeze_flatMap_space {space : Char} (hspace : isSpace space = true) (ls : List Text) :
    squeeze (ls.flatMap (· ++ [space])) = squeeze ls.flatten := by
  have hend : squeeze [space] = [] := by simp [squeeze, hspace]
  induction ls with
  | nil => rfl
  | cons l ls ih =>
      rw [List.flatMap_cons, List.flatten_cons, squeeze_append, squeeze_append, squeeze_append,
        ih, hend, List.append_nil]

/-- What the format has is framed: a repaired key is not touched again. -/
theorem framed_canonical (hbody : ∀ c ∈ body, c ∈ Base64.alphabet ∨ c = Base64.pad) :
    Framed label body (canonical label body) := by
  have hlines : ∀ ls : List Text, ['\n'].intercalate (beginMarker label :: ls ++
      [endMarker label, []]) =
        beginMarker label ++ ('\n' :: ls.flatMap (· ++ ['\n'])) ++ endMarker label ++ ['\n'] := by
    intro ls
    generalize beginMarker label = first
    induction ls generalizing first with
    | nil => simp [List.intercalate]
    | cons l ls ih =>
        have hcons := ih l
        simp only [List.intercalate, List.cons_append, List.intersperse_cons_cons,
          List.flatten_cons] at hcons ⊢
        rw [hcons]
        simp
  refine ⟨[], '\n' :: (lines body).flatMap (· ++ ['\n']), ['\n'], ?_, ?_, ?_, ?_⟩
  · exact hlines (lines body)
  · show squeeze ((lines body).flatMap (· ++ ['\n'])) = body
    rw [squeeze_flatMap_space rfl, flatten_lines, squeeze_body hbody]
  · intro c hc
    cases hc
  · intro c hc
    rw [List.mem_singleton.mp hc]
    rfl

/-! ### Undoing what happened -/

theorem not_mem_of_framed (hpem : Pem label body) (h : Framed label body text) : '\\' ∉ text := by
  obtain ⟨pre, w, post, rfl, hw, hpre, hpost⟩ := h.parts
  have hmarkers : ∀ word : Text, '\\' ∉ word → '\\' ∉ word ++ label ++ dashes := by
    intro word hword hmem
    rcases List.mem_append.mp hmem with hmem | hmem
    · rcases List.mem_append.mp hmem with hmem | hmem
      · exact hword hmem
      · exact (ne_of_isLabel (hpem.label _ hmem)).2 rfl
    · revert hmem
      decide
  intro hmem
  have hbegin : beginMarker label = beginWord ++ [' '] ++ label ++ dashes := by simp [beginMarker]
  simp only [List.mem_append] at hmem
  rcases hmem with (((hmem | hmem) | hmem) | hmem) | hmem
  · exact (ne_of_isSpace (hpre _ hmem)).2 rfl
  · rw [hbegin] at hmem
    exact hmarkers _ (by decide) hmem
  · exact (ne_of_squeeze hpem.body hw hmem).2 rfl
  · exact hmarkers _ (by decide) hmem
  · exact (ne_of_isSpace (hpost _ hmem)).2 rfl

theorem beginWord_within (h : Framed label body text) : beginWord <:+: text := by
  obtain ⟨pre, w, post, rfl, -⟩ := h.parts
  exact ⟨pre, ' ' :: label ++ dashes ++ w ++ endMarker label ++ post, by simp [beginMarker]⟩

/-- A text without a backslash is as it was. -/
theorem unflatten_of_not_mem {data : Text} (h : '\\' ∉ data) : unflatten data = data := by
  apply if_neg
  intro hcond
  exact h (hcond.1.subset List.mem_cons_self)

theorem unescape_escape (h : '\\' ∉ text) : unescape (escape text) = text := by
  induction text with
  | nil => rfl
  | cons c text ih =>
      obtain ⟨hc, htext⟩ := not_or.mp (mt List.mem_cons.mpr h)
      have hcons : escape (c :: text) =
          (if c = '\n' then ['\\', 'n'] else [c]) ++ escape text := List.flatMap_cons
      rw [hcons]
      by_cases hbreak : c = '\n'
      · rw [if_pos hbreak, hbreak]
        show '\n' :: unescape (escape text) = _
        rw [ih htext]
      · rw [if_neg hbreak]
        show unescape (c :: escape text) = _
        rw [unescape, ih htext]
        intro rest hslash
        exact absurd hslash.symm hc

theorem unflatten_escape (h : '\\' ∉ text) (hbreak : '\n' ∈ text) :
    unflatten (escape text) = text := by
  have hwithin : ['\\', 'n'] <:+: escape text := by
    obtain ⟨a, b, rfl⟩ := List.append_of_mem hbreak
    exact ⟨escape a, escape b, by simp [escape]⟩
  have hnone : '\n' ∉ escape text := by
    intro hmem
    obtain ⟨c, -, hc⟩ := List.mem_flatMap.mp hmem
    by_cases hcb : c = '\n'
    · rw [if_pos hcb] at hc
      revert hc
      decide
    · rw [if_neg hcb] at hc
      exact hcb (List.mem_singleton.mp hc).symm
  rw [unflatten, if_pos ⟨hwithin, hnone⟩, unescape_escape h]

/-- A text that was encoded whole is decoded, whatever whitespace it took on. -/
theorem unwrap_encoded {data : Text} (h : Framed label body text)
    (hdata : squeeze data = Base64.encode text.utf8Encode.data.toList) :
    '\\' ∉ data ∧ unwrap data = text := by
  have hne : ∀ c ∈ data, c ≠ '-' ∧ c ≠ '\\' := fun c hc =>
    ne_of_squeeze (fun c hc => Base64.mem_encode hc) hdata hc
  have hnot : ¬ beginWord <:+: data := by
    intro hwithin
    exact (hne '-' (hwithin.subset (by decide))).1 rfl
  have hdecoded : b64Text data = some text := by
    rw [b64Text, hdata, Base64.decode_encode]
    show (do let chars ← (ByteArray.mk text.utf8Encode.data.toList.toArray).utf8Decode?
             pure chars.toList) = some text
    rw [Array.toArray_toList]
    show (do let chars ← text.utf8Encode.utf8Decode?; pure chars.toList) = some text
    rw [List.utf8Decode?_utf8Encode]
    simp
  refine ⟨fun hmem => (hne _ hmem).2 rfl, ?_⟩
  rw [unwrap, if_neg hnot, hdecoded]
  exact if_pos (beginWord_within h)

/-- What is left of a mangled key, when the library is asked, is a framed one. -/
theorem framed_of_mangled (hpem : Pem label body) {data : Text} (h : Mangled label body data) :
    Framed label body (unwrap (unflatten data)) := by
  have hframed : ∀ {text : Text}, Framed label body text → unwrap text = text := fun h =>
    if_pos (beginWord_within h)
  cases h with
  | spaced h =>
      rw [unflatten_of_not_mem (not_mem_of_framed hpem h), hframed h]
      exact h
  | escaped h hbreak =>
      rw [unflatten_escape (not_mem_of_framed hpem h) hbreak, hframed h]
      exact h
  | encoded h hdata =>
      obtain ⟨hslash, htext⟩ := unwrap_encoded h hdata
      rw [unflatten_of_not_mem hslash, htext]
      exact h

variable {lib : KeyLib Key} {key : Key}

/-- **A mangled key is read.** -/
theorem parseKalshiPem_mangled (hpem : Pem label body) (hlib : Loads lib label body key)
    {data : Text} (h : Mangled label body data) : parseKalshiPem lib data = .ok key := by
  have hframed := framed_of_mangled hpem h
  rw [parseKalshiPem]
  rcases hlib.framed _ hframed with hload | hload
  · simp only [hload]
    show (if lib.isRsa key = true then _ else _) = _
    rw [if_pos hlib.isRsa]
    rfl
  · simp only [hload, repairPem_framed hpem hframed]
    show (do let key ← lib.loadPem (canonical label body)
             if lib.isRsa key then pure key else .error .typeError) = _
    rw [hlib.canonical]
    show (if lib.isRsa key = true then _ else _) = _
    rw [if_pos hlib.isRsa]
    rfl

end Framed

/-- **A key survives its way here.** Whatever of these happened to it, inline
or in a file, the adapter gets the key it was; and it is told that there is none
only where nothing is set. -/
theorem creds_of_mangled (lib : KeyLib Key) (readText : String → Except LoadError Text)
    (env : KeyEnv) {label body : Text} {key : Key} {keyId : String} (hpem : Pem label body)
    (hlib : Loads lib label body key) (hid : given env.apiKeyId = some keyId)
    (harrived : (∃ inline, given env.privateKey = some inline ∧
        Mangled label body inline.toList) ∨
      given env.privateKey = none ∧ ∃ pemPath text, given env.privateKeyPath = some pemPath ∧
        readText pemPath = .ok text ∧ Mangled label body text) :
    kalshiWsCredsFromEnv lib readText env = .ok (some (keyId, key)) ∧
      ∀ env', kalshiWsCredsFromEnv lib readText env' = .ok none ↔
        given env'.apiKeyId = none ∧ given env'.privateKey = none ∧
          given env'.privateKeyPath = none := by
  constructor
  · rcases harrived with ⟨inline, hinline, hmangled⟩ | ⟨hnone, pemPath, text, hpath, hread, hmangled⟩
    · rw [kalshiWsCredsFromEnv, hid, hinline]
      simp only [parseKalshiPem_mangled hpem hlib hmangled]
    · rw [kalshiWsCredsFromEnv, hid, hnone, hpath]
      simp only [hread]
      show (match parseKalshiPem lib text with
        | .ok key => _
        | .error _ => _) = _
      rw [parseKalshiPem_mangled hpem hlib hmangled]
  · intro env'
    unfold kalshiWsCredsFromEnv
    cases given env'.apiKeyId <;> cases given env'.privateKey <;>
      cases given env'.privateKeyPath <;> simp <;> split <;> simp

/-! ### A key pasted into one line -/

/-- A library that holds one key, and finds any text but its PEM malformed. -/
def libOf (label body : Text) : KeyLib ℕ where
  loadPem text := if text = canonical label body then .ok 1024 else .error .valueError
  isRsa _ := true

theorem loads_libOf (label body : Text) : Loads (libOf label body) label body 1024 where
  canonical := if_pos rfl
  isRsa := rfl
  framed text _ := by
    by_cases h : text = canonical label body
    · exact .inl (if_pos h)
    · exact .inr (if_neg h)

/-- A PEM with blanks for its line breaks. -/
def oneLine (label body : Text) : Text :=
  beginMarker label ++ (' ' :: (lines body).flatMap (· ++ [' '])) ++ endMarker label

theorem framed_oneLine {label body : Text}
    (hbody : ∀ c ∈ body, c ∈ Base64.alphabet ∨ c = Base64.pad) :
    Framed label body (oneLine label body) := by
  refine ⟨[], ' ' :: (lines body).flatMap (· ++ [' ']), [], by simp [oneLine], ?_, ?_, ?_⟩
  · show squeeze ((lines body).flatMap (· ++ [' '])) = body
    rw [squeeze_flatMap_space rfl, flatten_lines, squeeze_body hbody]
  · intro c hc
    cases hc
  · intro c hc
    cases hc

/-- As it arrives, the library refuses it. -/
theorem refused_oneLine (label body : Text) :
    (libOf label body).loadPem (oneLine label body) = .error .valueError := by
  apply if_neg
  intro heq
  have hblank : oneLine label body = beginMarker label ++
      ' ' :: ((lines body).flatMap (· ++ [' ']) ++ endMarker label) := by
    simp [oneLine]
  have hbreak : canonical label body = beginMarker label ++
      '\n' :: ['\n'].intercalate (lines body ++ [endMarker label, []]) := by
    cases hlines : lines body with
    | nil => simp [canonical, hlines, List.intercalate]
    | cons l ls => simp [canonical, hlines, List.intercalate]
  rw [hblank, hbreak] at heq
  have hchars := (List.cons.inj (List.append_cancel_left heq)).1
  revert hchars
  decide

namespace RsaKey

def label : Text := ['R', 'S', 'A', ' ', 'P', 'R', 'I', 'V', 'A', 'T', 'E', ' ', 'K', 'E', 'Y']

/-- The bytes of a number, the highest first. -/
def bytes (width n : ℕ) : List UInt8 :=
  (List.range width).reverse.map fun i => UInt8.ofNat (n / 256 ^ i % 256)

/-- The encoding of a key of 1024 bits. -/
def der : List UInt8 :=
  [
    0x3082025d02010002818100ce7022d9dce94f8bf57743e0f84523166f9e,
    0x4d7ab7027bce174beecc19e1b967315d068704e82b20de674ebc791121,
    0x2d31eae258a6809cb73cde67b85cc53545f7bb337e8c391b7032e3f979,
    0x5fdebca78b127ecc0feb411922692ab87da3c568e582e78e9661deb8fb,
    0x07cbcfbb06b37b5007e78ad1cc135cd5f5b2fa4a86291d020301000102,
    0x81803a386febc79cd93d5cae152bb679312b1bb1a6a24c48dc07c4943a,
    0xb5bf3ae4e2108eeecf5777eee9e72f758a3c0eb3af9e5b6318a364b44e,
    0x0d51a028e3a90e9bb9d83fd794bbc2c24d49dd91ab7a5764eedd723057,
    0xe37f2736a46de983812c80820c0a3e3c7c4534edba61a05d271ec9f37e,
    0x241d2d01d9e28ac9a8ff2ac23935024100fac7b6ef928e7e077e34d0ae,
    0xb0d89f13433a1a73350c4cf2e2f3634bd996f8484150d23d9c32e00017,
    0xc4f088896fd49e0ee4f0faeb8c3a76a4af7e3beeedeccf024100d2bc24,
    0xdf777e7e774a2f559e5c796fe736d86b3f61f8b716164d179b28ba991b,
    0xf3c989019a7ba5f70ccb7227e4fd2f7cc806a4e89c5090fed650954544,
    0x03fe530240609209b325d7b3568556274a2e15ace4490e15e369792c24,
    0x981aab9128e04709e4051080e3268035e8f150c2f351da296788e7f768,
    0x3f5ec01358f51e753aafe702410098e83d950c3e738319080986f3b085,
    0xbaee37d071d823c0ad3d174916a351ea00b73eb7b3bb251702907d1a62,
    0xca2bd00629997094fbbf15c663396b662bf8fdd3024100ab4367b11f28,
    0x0d6c6f8968cc2458e014f0827410fe680945f767643712dc7ce4cd583c,
    0x2cf7318c8d0f8e658dbb8892b97d382aa63c5519703df6e78c1d9ba5fa].flatMap (bytes 29)

def body : Text := Base64.encode der

theorem pem : Pem label body where
  label_ne := List.cons_ne_nil _ _
  label := List.all_eq_true.mp (by decide +kernel)
  body_ne := by decide +kernel
  body := fun _ hc => Base64.mem_encode hc

def env : KeyEnv where
  apiKeyId := some "key-id"
  privateKey := some (String.ofList (oneLine label body))

end RsaKey

open RsaKey in
/-- The library refuses the key as it is set, and the repair makes it load. -/
theorem creds_of_mangled_oneLine :
    (libOf label body).loadPem (oneLine label body) = .error .valueError ∧
      kalshiWsCredsFromEnv (libOf label body) (fun _ => .error .other) env =
        .ok (some ("key-id", 1024)) := by
  have hid : given env.apiKeyId = some "key-id" := by decide +kernel
  have hinline : given env.privateKey = some (String.ofList (oneLine label body)) :=
    given_ofList (List.cons_ne_nil _ _)
  have hmangled : Mangled label body (String.ofList (oneLine label body)).toList := by
    rw [String.toList_ofList]
    exact .spaced (framed_oneLine pem.body)
  exact ⟨refused_oneLine label body, (creds_of_mangled _ _ env pem (loads_libOf label body) hid
    (.inl ⟨_, hinline, hmangled⟩)).1⟩

end KalshiKey

end Arbys
