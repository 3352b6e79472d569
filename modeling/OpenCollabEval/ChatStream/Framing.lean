import OpenCollabEval.ChatStream.StreamView
import OpenCollabEval.Python.JsonRespaced

/-!
# The payloads of a stream

Below its limits a stream is framed line by line: each line gives a text, and the texts between two
empty ones give a payload. A comment line changes no payload, and a payload that is cut into two
data lines at white space is read as the same document.
-/

open Python

namespace Python

/-- The lines of some bytes are the bytes. -/
theorem flatten_physicalLines (data : List Nat) : (physicalLines data).flatten = data := by
  induction data with
  | nil => rfl
  | cons b rest ih =>
    rw [physicalLines]
    split_ifs with hfeed
    · rw [List.flatten_cons, ih, beq_iff_eq.mp hfeed, List.singleton_append]
    · cases hlines : physicalLines rest with
      | nil =>
        rw [hlines] at ih
        simpa using ih
      | cons line lines =>
        rw [hlines, List.flatten_cons] at ih
        simpa using ih

/-- A line has at least one byte. -/
theorem ne_nil_of_mem_physicalLines {data line : List Nat} (h : line ∈ physicalLines data) :
    line ≠ [] := by
  induction data generalizing line with
  | nil => cases h
  | cons b rest ih =>
    rw [physicalLines] at h
    split_ifs at h
    · rcases List.mem_cons.mp h with rfl | h
      · simp
      · exact ih h
    · cases hlines : physicalLines rest with
      | nil =>
        rw [hlines, List.mem_singleton] at h
        simp [h]
      | cons first lines =>
        rw [hlines] at h
        rcases List.mem_cons.mp h with rfl | h
        · simp
        · exact ih (by rw [hlines]; exact List.mem_cons_of_mem _ h)

/-- White space of JSON is white space of Python. -/
theorem isSpace_of_isJsonSpace {c : Nat} (h : isJsonSpace c = true) : Str.isSpace c = true := by
  simp only [isJsonSpace, Bool.or_eq_true, beq_iff_eq] at h
  rcases h with ((rfl | rfl) | rfl) | rfl <;> rfl

/-- White space inside of a text that has some around it is not stripped. -/
theorem strip_append {p q : Str} (w : Str) (hp : ∃ c ∈ p, Str.isSpace c = false)
    (hq : ∃ c ∈ q, Str.isSpace c = false) :
    ∃ p' q', Str.strip (p ++ (w ++ q)) = p' ++ (w ++ q') := by
  refine ⟨Str.lstripOf Str.isSpace p, Str.rstripOf Str.isSpace q, ?_⟩
  obtain ⟨c, hc, hcp⟩ := hp
  obtain ⟨d, hd, hdq⟩ := hq
  have hleft : p.dropWhile Str.isSpace ≠ [] := by
    rw [ne_eq, List.dropWhile_eq_nil_iff]
    intro hall
    simp [hall c hc] at hcp
  have hright : q.reverse.dropWhile Str.isSpace ≠ [] := by
    rw [ne_eq, List.dropWhile_eq_nil_iff]
    intro hall
    simp [hall d (List.mem_reverse.mpr hd)] at hdq
  simp [Str.strip, Str.stripOf, Str.lstripOf, Str.rstripOf, List.rdropWhile, List.dropWhile_append,
    hleft, hright]

theorem strip_of_space_left {p : Str} (hp : ∀ c ∈ p, Str.isSpace c = true) (q : Str) :
    Str.strip (p ++ q) = Str.strip q := by
  rw [Str.strip, Str.stripOf, Str.lstripOf, List.dropWhile_append_of_pos hp]
  rfl

theorem strip_of_space_right {q : Str} (hq : ∀ c ∈ q, Str.isSpace c = true) (p : Str) :
    Str.strip (p ++ q) = Str.strip p := by
  have hnil : q.dropWhile Str.isSpace = [] := List.dropWhile_eq_nil_iff.mpr hq
  have hdropped : ∀ s : Str, Str.rstripOf Str.isSpace (s ++ q) = Str.rstripOf Str.isSpace s := by
    intro s
    rw [Str.rstripOf, List.rdropWhile, List.reverse_append, List.dropWhile_append_of_pos]
    · rfl
    · exact fun c hc => hq c (List.mem_reverse.mp hc)
  rw [Str.strip, Str.stripOf, Str.lstripOf, List.dropWhile_append]
  split_ifs with hempty
  · rw [hnil, Str.strip, Str.stripOf, Str.lstripOf, List.isEmpty_iff.mp hempty]
  · exact hdropped _

/-- A text that begins with no name and no number is none. -/
theorem scanAtom_eq_error {c : Nat} (s : Str)
    (hnames : ∀ entry ∈ namedValues, entry.1.head? ≠ some c) (hminus : c ≠ 45)
    (hdigit : Str.isDigit c = false) :
    scanAtom (c :: s) = .error .jsonDecodeError := by
  have hnone : (namedValues.find? fun entry => Str.startsWith (c :: s) entry.1) = none := by
    rw [List.find?_eq_none]
    intro entry hentry
    have hnonempty : ∀ entry ∈ namedValues, entry.1 ≠ [] := by
      simp [namedValues, lit]
    obtain ⟨d, name, hname⟩ := List.exists_cons_of_ne_nil (hnonempty entry hentry)
    have hne : d ≠ c := by
      rintro rfl
      exact hnames entry hentry (by rw [hname]; rfl)
    simp [Str.startsWith, hname, hne]
  have hzero : c ≠ 48 := by
    rintro rfl
    cases hdigit
  have hnumber : scanNumber (c :: s) = none := by
    simp [scanNumber, scanMinus, hminus, scanWhole, hzero, hdigit]
  rw [scanAtom, hnone, hnumber]

end Python

namespace OpenCollabEval

namespace ChatStream

section Lines

/-- The text of a line, unless the line is no UTF-8. -/
def lineText (line : List Nat) : Option Str :=
  (Str.decodeUtf8 false line).map fun text => text.rstripOf fun c => c == 13 || c == 10

/-- The texts of the lines of a stream. -/
def lineTexts (stream : List Nat) : List (Option Str) := (physicalLines stream).map lineText

/-- The payloads of some texts after the pending data lines. -/
def framesOf : List Str → List (Option Str) → List Frame
  | pending, [] => flush pending
  | _, none :: _ => [.error "upstream stream is not valid UTF-8"]
  | pending, some text :: rest =>
    if text.isEmpty then flush pending ++ framesOf [] rest else framesOf (addLine pending text) rest

/-- The payloads of a stream. -/
def payloads (stream : List Nat) : List Frame := framesOf [] (lineTexts stream)

/-- Below its limits a stream is framed by the texts of its lines. -/
theorem events_eq_framesOf {limit : Int} {expired : Nat → Bool} (hexpired : ∀ n, expired n = false)
    {lines : List (List Nat)} (hlines : ∀ line ∈ lines, line ≠ []) {total : Int}
    (htotal : 0 ≤ total) (hlimit : total + lines.flatten.length ≤ limit) (n : Nat)
    (pending : List Str) :
    events limit expired n total pending lines = framesOf pending (lines.map lineText) := by
  induction lines generalizing n total pending with
  | nil => simp [events, framesOf, hexpired]
  | cons line rest ih =>
    obtain ⟨hline, hrest⟩ := List.forall_mem_cons.mp hlines
    have hlength : ((line :: rest).flatten.length : Int) = line.length + rest.flatten.length := by
      simp
    rw [hlength] at hlimit
    -- the line is read as a whole
    have hwhole : (if limit + 1 < 0 then line else line.take (limit + 1).toNat) = line := by
      rw [if_neg (by omega), List.take_of_length_le (by omega)]
    have hcounted :
        (decide (limit < total + line.length) || decide (limit < line.length)) = false := by
      simp only [Bool.or_eq_false_iff, decide_eq_false_iff_not]
      omega
    rw [events]
    dsimp only
    rw [hexpired, hwhole, hcounted, List.map_cons, lineText]
    simp only [Bool.false_eq_true, if_false, List.isEmpty_iff, hline]
    cases Str.decodeUtf8 false line with
    | none => rfl
    | some decoded =>
      rw [Option.map_some, framesOf]
      have hnext := fun pending =>
        @ih hrest (total + line.length) (by omega) (by omega) (n + 1) pending
      simp only [hnext, List.isEmpty_iff]

/-- A stream below its limits has its payloads. -/
theorem events_eq_payloads {limit : Int} {expired : Nat → Bool} (hexpired : ∀ n, expired n = false)
    {stream : List Nat} (hlimit : stream.length ≤ limit) :
    events limit expired 0 0 [] (physicalLines stream) = payloads stream := by
  apply events_eq_framesOf hexpired (fun line hline => ne_nil_of_mem_physicalLines hline) le_rfl
  rwa [flatten_physicalLines, Int.zero_add]

/-- A comment line adds nothing to the payloads. -/
theorem framesOf_comment (pending : List Str) (before after : List (Option Str)) (comment : Str) :
    framesOf pending (before ++ some (58 :: comment) :: after) =
      framesOf pending (before ++ after) := by
  induction before generalizing pending with
  | nil =>
    have hcolon : Str.startsWith (58 :: comment) ":" = true := by rfl
    simp [framesOf, addLine, hcolon]
  | cons text before ih =>
    cases text with
    | none => rfl
    | some text => simp only [List.cons_append, framesOf, ih]

end Lines

section Cut

/-- The pending data lines after some texts. -/
def pendingAfter : List Str → List (Option Str) → List Str
  | pending, [] => pending
  | pending, none :: _ => pending
  | pending, some text :: rest =>
    pendingAfter (if text.isEmpty then [] else addLine pending text) rest

/-- A data line. -/
def dataLine (body : Str) : Str := lit "data:" ++ body

/-- What a data line adds to a payload. -/
def lineBody (body : Str) : Str := Str.lstripOf (· == 32) body

/-- The same payloads up to white space between the tokens. -/
def SameFrames (frames frames' : List Frame) : Prop :=
  List.Forall₂ (fun frame frame' => frame = frame' ∨
    ∃ data data', frame = .ok data ∧ frame' = .ok data' ∧ Respaced false data data') frames frames'

theorem SameFrames.refl (frames : List Frame) : SameFrames frames frames :=
  List.forall₂_same.mpr fun _ _ => .inl rfl

theorem addLine_dataLine (pending : List Str) (body : Str) :
    addLine pending (dataLine body) = pending ++ [lineBody body] := by
  have hcomment : Str.startsWith (dataLine body) ":" = false := by rfl
  have hdata : Str.startsWith (dataLine body) "data:" = true := by
    rw [Str.startsWith, List.isPrefixOf_iff_prefix, dataLine]
    exact List.prefix_append _ _
  rw [addLine, hcomment, hdata]
  rfl

theorem join_concat {pending : List Str} (h : pending ≠ []) (line : Str) :
    Str.join "\n" (pending ++ [line]) = Str.join "\n" pending ++ 10 :: line := by
  induction pending with
  | nil => exact absurd rfl h
  | cons first rest ih =>
    cases rest with
    | nil =>
      rw [List.cons_append, List.nil_append, Str.join_cons_cons, Str.join_singleton,
        Str.join_singleton]
      rfl
    | cons second rest =>
      have hrest := ih (by simp)
      rw [List.cons_append, List.cons_append, Str.join_cons_cons, ← List.cons_append, hrest,
        Str.join_cons_cons, List.append_assoc, List.append_assoc]

/-- Pending lines that differ in white space give payloads that do. -/
theorem sameFrames_of_pending {pending pending' : List Str} (hne : pending ≠ [])
    (hne' : pending' ≠ [])
    (h : Respaced false (Str.join "\n" pending) (Str.join "\n" pending'))
    (rest : List (Option Str)) :
    SameFrames (framesOf pending rest) (framesOf pending' rest) := by
  have hflush : SameFrames (flush pending) (flush pending') := by
    rw [flush, flush, if_neg (by simpa using hne), if_neg (by simpa using hne')]
    exact .cons (.inr ⟨_, _, rfl, rfl, h⟩) .nil
  induction rest generalizing pending pending' with
  | nil => exact hflush
  | cons text rest ih =>
    cases text with
    | none => exact SameFrames.refl _
    | some text =>
      rw [framesOf, framesOf]
      split_ifs
      · exact List.rel_append hflush (SameFrames.refl _)
      · have hadded (line : Str) : Respaced false (Str.join "\n" (pending ++ [line]))
            (Str.join "\n" (pending' ++ [line])) := by
          rw [join_concat hne, join_concat hne']
          exact h.append _
        have hflushed (line : Str) :
            SameFrames (flush (pending ++ [line])) (flush (pending' ++ [line])) := by
          rw [flush, flush, if_neg (by simp), if_neg (by simp)]
          exact .cons (.inr ⟨_, _, rfl, rfl, hadded line⟩) .nil
        rw [addLine, addLine]
        split_ifs
        · exact ih hne hne' h hflush
        · exact ih (by simp) (by simp) (hadded _) (hflushed _)
        · exact ih hne hne' h hflush

/-- A text loses its leading spaces only where it begins with them. -/
theorem lineBody_append {x : Str} (h : ∃ c ∈ x, c ≠ 32) (t : Str) :
    lineBody (x ++ t) = lineBody x ++ t := by
  have hne : lineBody x ≠ [] := by
    obtain ⟨c, hc, hne⟩ := h
    rw [lineBody, Str.lstripOf, ne_eq, List.dropWhile_eq_nil_iff]
    intro hall
    exact hne (by simpa using hall c hc)
  rw [lineBody, Str.lstripOf, List.dropWhile_append, if_neg]
  · rfl
  · rw [List.isEmpty_iff]
    exact hne

/-- The rest of a data line without its leading spaces. -/
theorem exists_lineBody {w y : Str} (hw : ∀ c ∈ w, isJsonSpace c = true) :
    ∃ u v z, y = u ++ z ∧ lineBody (w ++ y) = v ++ z ∧ (∀ c ∈ u, isJsonSpace c = true) ∧
      ∀ c ∈ v, isJsonSpace c = true := by
  by_cases hspaces : ∀ c ∈ w, (c == 32) = true
  · refine ⟨y.takeWhile (· == 32), [], lineBody y, ?_, ?_, ?_, by simp⟩
    · exact List.takeWhile_append_dropWhile.symm
    · rw [lineBody, Str.lstripOf, List.dropWhile_append_of_pos hspaces]
      rfl
    · intro c hc
      have hspace : (c == 32) = true := List.mem_takeWhile_imp (p := fun d => d == 32) hc
      rw [beq_iff_eq.mp hspace]
      rfl
  · simp only [not_forall, beq_iff_eq] at hspaces
    obtain ⟨c, hc, hne⟩ := hspaces
    refine ⟨[], lineBody w, y, rfl, lineBody_append ⟨c, hc, hne⟩ y, by simp, ?_⟩
    exact fun d hd => hw d ((List.dropWhile_suffix _).subset hd)

/-- The parts of a data line that is cut at white space. The white space may stand at its start,
where only the spaces are lost. -/
theorem exists_lineBody_cut {x w w₁ : Str} (hstart : ∃ c ∈ x ++ w, c ≠ 32) (hw : Blank w)
    (hw₁ : ∀ c ∈ w₁, isJsonSpace c = true) : ∃ u v,
      (∀ y, lineBody (x ++ (w ++ y)) = lineBody x ++ (u ++ y)) ∧
      lineBody (x ++ w₁) = lineBody x ++ v ∧ Blank u ∧ ∀ c ∈ v, isJsonSpace c = true := by
  by_cases hx : ∃ c ∈ x, c ≠ 32
  · exact ⟨w, w₁, fun y => lineBody_append hx _, lineBody_append hx _, hw, hw₁⟩
  · have hspaces : ∀ c ∈ x, (c == 32) = true := by
      intro c hc
      rw [beq_iff_eq]
      by_contra hne
      exact hx ⟨c, hc, hne⟩
    have hdropped (t : Str) : lineBody (x ++ t) = lineBody t := by
      rw [lineBody, Str.lstripOf, List.dropWhile_append_of_pos hspaces]
      rfl
    have hnil : lineBody x = [] := List.dropWhile_eq_nil_iff.mpr hspaces
    obtain ⟨c, hc, hne⟩ := hstart
    have hword : ∃ c ∈ w, c ≠ 32 := by
      rcases List.mem_append.mp hc with hc | hc
      · exact absurd ⟨c, hc, hne⟩ hx
      · exact ⟨c, hc, hne⟩
    have hsub {t : Str} : ∀ d ∈ lineBody t, d ∈ t := fun d hd => (List.dropWhile_suffix _).subset hd
    refine ⟨lineBody w, lineBody w₁, fun y => ?_, ?_, ⟨?_, fun d hd => hw.2 d (hsub d hd)⟩,
      fun d hd => hw₁ d (hsub d hd)⟩
    · rw [hdropped, hnil, lineBody_append hword, List.nil_append]
    · rw [hdropped, hnil, List.nil_append]
    · rw [lineBody, Str.lstripOf, ne_eq, List.dropWhile_eq_nil_iff]
      obtain ⟨d, hd, hdne⟩ := hword
      exact fun hall => hdne (beq_iff_eq.mp (hall d hd))

/-- A payload that is cut into two data lines at white space outside of its strings differs from the
payload in white space. -/
theorem sameFrames_cut {before after : List (Option Str)} {pending : List Str} {x w w₁ w₂ y : Str}
    (hstart : ∃ c ∈ x ++ w, c ≠ 32) (hw : Blank w) (hw₁ : ∀ c ∈ w₁, isJsonSpace c = true)
    (hw₂ : ∀ c ∈ w₂, isJsonSpace c = true)
    (houtside :
      endsQuoted false (Str.join "\n" (pendingAfter pending before ++ [lineBody x])) = false) :
    SameFrames (framesOf pending (before ++ some (dataLine (x ++ (w ++ y))) :: after))
      (framesOf pending
        (before ++ some (dataLine (x ++ w₁)) :: some (dataLine (w₂ ++ y)) :: after)) := by
  induction before generalizing pending with
  | nil =>
    rw [pendingAfter] at houtside
    have hopen (body : Str) : (dataLine body).isEmpty = false := by rfl
    simp only [List.nil_append, framesOf, hopen, Bool.false_eq_true, if_false, addLine_dataLine]
    apply sameFrames_of_pending (by simp) (by simp)
    obtain ⟨blank, blank₁, hfirst, hcut, ⟨hne, hblank⟩, hblank₁⟩ :=
      exists_lineBody_cut hstart hw hw₁
    obtain ⟨u, v, z, hy, hbody, hu, hv⟩ := exists_lineBody (y := y) hw₂
    -- both texts begin with the payload up to the cut
    have hgrown (t : Str) : Str.join "\n" (pending ++ [lineBody x ++ t]) =
        Str.join "\n" (pending ++ [lineBody x]) ++ t := by
      by_cases hpending : pending = []
      · simp [hpending, Str.join_singleton]
      · rw [join_concat hpending, join_concat hpending, List.append_assoc, List.cons_append]
    rw [@join_concat (pending ++ [lineBody (x ++ w₁)]) (by simp), hfirst, hcut, hgrown,
      hgrown, hbody, hy]
    refine .inr ⟨_, blank ++ u, blank₁ ++ 10 :: v, z, by simp, by simp, houtside, ⟨?_, ?_⟩,
      ⟨by simp, ?_⟩⟩
    · simp [hne]
    · exact fun c hc => (List.mem_append.mp hc).elim (hblank c) (hu c)
    · intro c hc
      rcases List.mem_append.mp hc with hc | hc
      · exact hblank₁ c hc
      · rcases List.mem_cons.mp hc with rfl | hc
        · rfl
        · exact hv c hc
  | cons text before ih =>
    cases text with
    | none => exact SameFrames.refl _
    | some text =>
      rw [pendingAfter] at houtside
      simp only [List.cons_append, framesOf]
      split_ifs at houtside ⊢
      · exact List.rel_append (SameFrames.refl _) (ih houtside)
      · exact ih houtside

end Cut

section Reading

/-- The end of a stream is written without white space. -/
theorem isDone_respaced {data data' : Str} (h : Respaced false data data')
    (hdone : isDone data = true) : isDone data' = true := by
  rw [isDone, beq_iff_eq] at hdone ⊢
  rcases h with rfl | ⟨p, w, w', q, rfl, rfl, -, ⟨hne, hw⟩, ⟨-, hw'⟩⟩
  · exact hdone
  have hspace : ∀ c ∈ w, Str.isSpace c = true := fun c hc => isSpace_of_isJsonSpace (hw c hc)
  have hspace' : ∀ c ∈ w', Str.isSpace c = true := fun c hc => isSpace_of_isJsonSpace (hw' c hc)
  by_cases hp : ∀ c ∈ p, Str.isSpace c = true
  · rw [strip_of_space_left hp, strip_of_space_left hspace] at hdone
    rwa [strip_of_space_left hp, strip_of_space_left hspace']
  by_cases hq : ∀ c ∈ q, Str.isSpace c = true
  · have hall : ∀ {u : Str}, (∀ c ∈ u, Str.isSpace c = true) →
        ∀ c ∈ u ++ q, Str.isSpace c = true :=
      fun hu c hc => (List.mem_append.mp hc).elim (hu c) (hq c)
    rw [strip_of_space_right (hall hspace)] at hdone
    rwa [strip_of_space_right (hall hspace')]
  -- the white space would stand in the text that ends the stream
  simp only [not_forall, Bool.not_eq_true] at hp hq
  obtain ⟨c, hc, hcp⟩ := hp
  obtain ⟨d, hd, hdq⟩ := hq
  obtain ⟨p', q', hstrip⟩ := strip_append w ⟨c, hc, hcp⟩ ⟨d, hd, hdq⟩
  obtain ⟨e, u, rfl⟩ := List.exists_cons_of_ne_nil hne
  have hmem : e ∈ lit "[DONE]" := by
    rw [← hdone, hstrip]
    simp
  have hplain : ∀ c ∈ lit "[DONE]", Str.isSpace c = false := by decide
  have hfalse := hspace e (by simp)
  rw [hplain e hmem] at hfalse
  cases hfalse

/-- The text that ends a stream is no document. -/
theorem isDone_of_loads {depth : Nat} {data : Str} {v : Json} (h : loads depth data = .ok v) :
    isDone data = false := by
  rw [Bool.eq_false_iff]
  intro hdone
  rw [isDone, beq_iff_eq] at hdone
  -- what is left of the text without the white space at its start
  obtain ⟨rest, hrest⟩ : ∃ rest, data.dropWhile Str.isSpace = 91 :: 68 :: rest := by
    have hleft := List.rdropWhile_prefix Str.isSpace (data.dropWhile Str.isSpace)
    have hstrip : (data.dropWhile Str.isSpace).rdropWhile Str.isSpace = lit "[DONE]" := hdone
    rw [hstrip] at hleft
    obtain ⟨tail, htail⟩ := hleft
    exact ⟨_, htail.symm⟩
  rw [loads] at h
  split_ifs at h
  obtain ⟨⟨found, tail⟩, hscan, -⟩ := bind_eq_ok_iff.mp h
  have hskip : skipSpace data =
      (data.takeWhile Str.isSpace).dropWhile isJsonSpace ++ 91 :: 68 :: rest := by
    have hdata : data = data.takeWhile Str.isSpace ++ 91 :: 68 :: rest := by
      rw [← hrest, List.takeWhile_append_dropWhile]
    conv_lhs => rw [skipSpace, hdata, List.dropWhile_append]
    split_ifs with hempty
    · rw [List.isEmpty_iff.mp hempty]
      rfl
    · rfl
  rw [hskip] at hscan
  rcases hspaces : (data.takeWhile Str.isSpace).dropWhile isJsonSpace with _ | ⟨c, u⟩
  · -- an array whose first item is no value
    rw [hspaces, List.nil_append] at hscan
    have hitem (below : Nat) : scanOnce below (68 :: rest) = .error .jsonDecodeError := by
      rw [scanOnce.eq_def]
      exact scanAtom_eq_error (c := 68) rest (by decide) (by decide) (by decide)
    cases depth with
    | zero => cases hscan
    | succ depth =>
      have harray : scanOnce (depth + 1) (91 :: 68 :: rest) =
          scanArray (scanOnce depth) (68 :: rest) := rfl
      have hstart : skipSpace (68 :: rest) = 68 :: rest := rfl
      rw [harray, scanArray, hstart] at hscan
      obtain ⟨items, hitems, -⟩ := bind_eq_ok_iff.mp hscan
      rw [List.length_cons, scanItems, hitem] at hitems
      cases hitems
  · -- white space that JSON has not
    rw [hspaces, List.cons_append] at hscan
    have hjson : isJsonSpace c = false := by
      have hhead := List.head?_dropWhile_not isJsonSpace (data.takeWhile Str.isSpace)
      rw [hspaces] at hhead
      simpa using hhead
    have hspace : Str.isSpace c = true := by
      have hmem : c ∈ (data.takeWhile Str.isSpace).dropWhile isJsonSpace := by simp [hspaces]
      exact List.mem_takeWhile_imp (p := Str.isSpace) ((List.dropWhile_suffix _).subset hmem)
    have hother : ∀ d, Str.isSpace d = false → c ≠ d := by
      rintro d hd rfl
      simp [hd] at hspace
    have hatom := scanAtom_eq_error (c := c) (u ++ 91 :: 68 :: rest) (by
      intro entry hentry
      have hheads : ∀ entry ∈ namedValues, ∀ d ∈ entry.1.head?, Str.isSpace d = false := by decide
      intro hhead
      exact hother c (hheads entry hentry c hhead) rfl) (hother 45 (by decide)) (by
      rw [Bool.eq_false_iff]
      intro hdigit
      simp only [Str.isDigit, Bool.and_eq_true, decide_eq_true_eq] at hdigit
      revert hspace
      simp only [Str.isSpace, Bool.or_eq_true, Bool.and_eq_true, decide_eq_true_eq, beq_iff_eq]
      omega)
    have hquote := beq_false_of_ne (hother 34 (by decide))
    have harray := beq_false_of_ne (hother 91 (by decide))
    have hobject := beq_false_of_ne (hother 123 (by decide))
    rw [scanOnce.eq_def] at hscan
    simp only [hquote, harray, hobject, Bool.false_eq_true, if_false, hatom] at hscan
    cases hscan

/-- A payload that is read is read the same with other white space between its tokens. -/
theorem readChunk_respaced {depth : Nat} {data data' : Str} {chunk : Json}
    (h : Respaced false data data') (hread : readChunk depth data = .ok chunk) :
    isDone data' = false ∧ readChunk depth data' = .ok chunk := by
  rw [readChunk] at hread
  split at hread
  · rename_i found hfound
    obtain rfl := Except.ok.inj hread
    have hloads := loads_respaced h hfound
    exact ⟨isDone_of_loads hloads, by rw [readChunk, hloads]⟩
  · cases hread
  · cases hread

/-- Payloads that differ in white space are the same chunks. -/
theorem readChunks_respaced {depth : Nat} {frames frames' : List Frame} {read : List Json × Bool}
    (h : SameFrames frames frames') (hread : readChunks depth frames = .ok read) :
    readChunks depth frames' = .ok read := by
  induction h generalizing read with
  | nil => exact hread
  | @cons frame frame' rest rest' hframe _ ih =>
    cases frame with
    | error message => cases hread
    | ok data =>
      obtain ⟨data', rfl, hsame⟩ : ∃ data', frame' = .ok data' ∧ Respaced false data data' := by
        rcases hframe with rfl | ⟨found, data', hfound, rfl, hsame⟩
        · exact ⟨data, rfl, .refl _ _⟩
        · cases hfound
          exact ⟨data', rfl, hsame⟩
      rw [readChunks] at hread ⊢
      split_ifs at hread with hdone
      · rw [if_pos (isDone_respaced hsame hdone)]
        exact hread
      · obtain ⟨chunk, hchunk, hread⟩ := bind_eq_ok_iff.mp hread
        obtain ⟨others, hothers, hread⟩ := bind_eq_ok_iff.mp hread
        obtain ⟨hdone', hchunk'⟩ := readChunk_respaced hsame hchunk
        rw [hdone', hchunk', ih hothers]
        exact hread

/-- The chunks of two parts of a stream: the second part is read when the first does not end it. -/
theorem readChunks_append_iff {depth : Nat} {before after : List Frame} {chunks : List Json}
    {done : Bool} : readChunks depth (before ++ after) = .ok (chunks, done) ↔
      (readChunks depth before = .ok (chunks, true) ∧ done = true) ∨
      ∃ first second, readChunks depth before = .ok (first, false) ∧
        readChunks depth after = .ok (second, done) ∧ chunks = first ++ second := by
  induction before generalizing chunks with
  | nil => simp [readChunks]
  | cons frame before ih =>
    cases frame with
    | error message => simp [readChunks, fail]
    | ok data =>
      rw [List.cons_append, readChunks, readChunks]
      cases isDone data with
      | true => simp [eq_comm]
      | false =>
        simp only [Bool.false_eq_true, if_false, bind_eq_ok_iff]
        constructor
        · rintro ⟨chunk, hchunk, ⟨others, done'⟩, hothers, heq⟩
          obtain ⟨rfl, rfl⟩ := Prod.mk.inj (Except.ok.inj heq)
          rcases ih.mp hothers with ⟨hbefore, rfl⟩ | ⟨first, second, hfirst, hsecond, rfl⟩
          · exact .inl ⟨⟨chunk, hchunk, _, hbefore, rfl⟩, rfl⟩
          · exact .inr ⟨chunk :: first, second, ⟨chunk, hchunk, _, hfirst, rfl⟩, hsecond, rfl⟩
        · rintro (⟨⟨chunk, hchunk, ⟨others, done'⟩, hothers, heq⟩, rfl⟩ |
            ⟨_, second, ⟨chunk, hchunk, ⟨first, done'⟩, hfirst, heq⟩, hsecond, rfl⟩)
          · obtain ⟨rfl, rfl⟩ := Prod.mk.inj (Except.ok.inj heq)
            exact ⟨chunk, hchunk, _, ih.mpr (.inl ⟨hothers, rfl⟩), rfl⟩
          · obtain ⟨rfl, rfl⟩ := Prod.mk.inj (Except.ok.inj heq)
            exact ⟨chunk, hchunk, _, ih.mpr (.inr ⟨first, second, hfirst, hsecond, rfl⟩), rfl⟩

end Reading

end ChatStream

end OpenCollabEval
