import Dataspace.Proofs.Numerals

/-!
# Points of time read back

A contract document writes a point of time with an offset in hours and minutes, and every point of
time that is read from a document has such an offset: the text form has no seconds in it, it names
no zone, and a number stands for a point in UTC. So what was read once is written in a form that is
read as the same.

* **`inMinutes_of_read`** — what is read has an offset in minutes, and no zone.
* **`read_documentText`** — such a point of time is read from its own text.
-/

namespace Dataspace

theorem Offset.seconds_ofSeconds {n : Int} {o : Offset} (h : ofSeconds? n = some o) :
    o.seconds = n := by
  unfold ofSeconds? at h
  split at h
  · cases h
    rfl
  · cases h

/-- The sign of an offset gives it back from its size. -/
theorem Offset.sign_mul (o : Offset) :
    (if o.sign = '+' then (o.seconds.natAbs : Int) else -(o.seconds.natAbs : Int)) =
      o.seconds := by
  unfold Offset.sign
  by_cases hnegative : o.seconds < 0
  · rw [if_pos hnegative, if_neg (by decide)]
    omega
  · rw [if_neg hnegative, if_pos rfl]
    omega

namespace Timestamp

/-- The clock is that of no zone, and its offset, if it has one, has no seconds. -/
def InMinutes (t : Timestamp) : Prop :=
  ∃ offset, t.clock = .ofOffset offset ∧ ∀ o, offset = some o → o.seconds % 60 = 0

theorem InMinutes.zone_eq_none {t : Timestamp} (h : t.InMinutes) : t.clock.zone? = none := by
  obtain ⟨offset, hclock, -⟩ := h
  rw [hclock]
  cases offset <;> rfl

/-! ## What is read -/

theorem inMinutes_utc {t : Timestamp} (h : t.clock = .fixed Offset.utc) : t.InMinutes := by
  refine ⟨some Offset.utc, h, ?_⟩
  rintro o ⟨⟩
  rfl

theorem inMinutes_ofInstant {n : Int} {t : Timestamp} (h : ofInstant? n = some t) :
    t.InMinutes := by
  simp only [ofInstant?, Option.bind_eq_bind, Option.bind_eq_some_iff, Option.pure_def,
    Option.some.injEq] at h
  obtain ⟨date, -, time, -, rfl⟩ := h
  exact inMinutes_utc rfl

theorem inMinutes_ofFloat {x : Binary64} {t : Timestamp} (h : ofFloat? x = some t) :
    t.InMinutes := by
  simp only [ofFloat?, Option.bind_eq_bind, Option.bind_eq_some_iff] at h
  obtain ⟨⟨num, den⟩, -, h⟩ := h
  simp only at h
  split at h
  · exact inMinutes_ofInstant h
  · obtain ⟨⟨num', den'⟩, -, h⟩ := Option.bind_eq_some_iff.1 h
    exact inMinutes_ofInstant h

theorem inMinutes_offsetPart {s : List Char} {o : Offset} (h : offsetPart s = some (some o)) :
    o.seconds % 60 = 0 := by
  unfold offsetPart at h
  -- there is no offset, it is the letter for UTC, or it has a sign, hours and minutes
  split at h
  · cases h
  split at h
  · split at h
    · cases h
      rfl
    · cases h
  split at h
  · simp only [Option.bind_eq_bind, Option.bind_eq_some_iff] at h
    obtain ⟨⟨hours, r⟩, -, ⟨minutes, r'⟩, -, h⟩ := h
    simp only at h
    split at h
    · obtain ⟨o', ho', heq⟩ := Option.map_eq_some_iff.1 h
      cases heq
      rw [Offset.seconds_ofSeconds ho']
      -- hours and minutes make a multiple of sixty seconds, of either sign
      split <;> omega
    · cases h
  · cases h

theorem inMinutes_afterDate {s : List Char} {time : TimeOfDay} {o : Offset}
    (h : afterDate s = some (time, some o)) : o.seconds % 60 = 0 := by
  unfold afterDate at h
  split at h
  · cases h
  split at h
  · simp only [Option.bind_eq_bind, Option.bind_eq_some_iff, Option.pure_def,
      Option.some.injEq] at h
    obtain ⟨⟨time', r⟩, -, offset, hoffset, heq⟩ := h
    cases heq
    exact inMinutes_offsetPart hoffset
  · cases h

theorem inMinutes_readText {s : List Char} {t : Timestamp} (h : readText s = .ok t) :
    t.InMinutes := by
  unfold readText at h
  -- the text begins with a date, or it is a number, which stands for a point in UTC
  split at h
  · split at h
    · cases h
    · rename_i time offset hafter
      split at h
      · cases h
        refine ⟨offset, rfl, ?_⟩
        rintro o rfl
        exact inMinutes_afterDate hafter
      · cases h
  · simp only at h
    split at h
    · rename_i found
      cases h
      split at found
      · exact inMinutes_ofInstant found
      · exact inMinutes_ofFloat found
      · cases found
    · cases h

/-- **What is read from a document has an offset in minutes, and no zone.** -/
theorem inMinutes_of_read {v : Json} {t : Timestamp} (h : read v = .ok t) : t.InMinutes := by
  unfold read at h
  split at h
  · exact inMinutes_readText h
  · split at h
    · split at h
      · rename_i found
        cases h
        exact inMinutes_ofInstant found
      · cases h
    · cases h
  · split at h
    · rename_i found
      cases h
      exact inMinutes_ofFloat found
    · cases h
  · cases h

/-! ## What is written -/

theorem dateParts_text (d : Date) (s : List Char) :
    dateParts (d.text ++ s) = some ((d.year, d.month, d.day), s) := by
  obtain ⟨year, month, day, valid⟩ := d
  -- no month is longer, so two digits are enough
  have hday : day ≤ 31 := by
    refine Nat.le_trans valid.2.2.2.2.2 ?_
    unfold daysInMonth
    split
    · split <;> omega
    all_goals omega
  simp only [Date.text, List.append_assoc, List.cons_append, dateParts]
  rw [fixedDigits_padded (by decide) (by omega)]
  simp only [Option.bind_eq_bind, Option.bind_some, expect, if_true]
  rw [fixedDigits_padded (by decide) (by omega)]
  simp only [Option.bind_some, if_true]
  rw [fixedDigits_padded (by decide) (by omega)]
  rfl

/-- What stands behind a time: nothing that could belong to its seconds. -/
def EndsTime (s : List Char) : Prop :=
  ∀ c r, s = c :: r → c ≠ '.' ∧ c ≠ ',' ∧ Json.isDigit c = false

theorem secondsPart_text {second microsecond : Nat} (hsecond : second < 60)
    (hmicrosecond : microsecond < 1000000) {s : List Char} (hs : EndsTime s) :
    secondsPart (':' :: (Decimal.padded 2 second ++
        ((if microsecond = 0 then [] else '.' :: Decimal.padded 6 microsecond) ++ s))) =
      some ((second, microsecond), s) := by
  rw [secondsPart, fixedDigits_padded (by decide) (by omega)]
  simp only [Option.bind_eq_bind, Option.bind_some]
  by_cases hzero : microsecond = 0
  · -- a fraction is left out, and what follows does not look like one
    rw [if_pos hzero, List.nil_append, hzero]
    cases s with
    | nil => rfl
    | cons c r =>
      obtain ⟨hpoint, hcomma, -⟩ := hs c r rfl
      simp only [hpoint, hcomma, decide_false, Bool.or_self, Bool.false_eq_true, if_false]
  · have hdigits : ∀ c ∈ Decimal.padded 6 microsecond, Json.isDigit c = true :=
      fun c hc => Decimal.isDigit_of_mem_padded hc
    have hstop : s.head?.any Json.isDigit = false := by
      cases s with
      | nil => rfl
      | cons c r => exact (hs c r rfl).2.2
    have htake := takeWhile_append_stop hdigits hstop
    have hdrop := dropWhile_append_stop hdigits hstop
    have hlength : (Decimal.padded 6 microsecond).length = 6 :=
      Decimal.length_padded (by decide) hmicrosecond
    have hvalue : fractionMicroseconds (Decimal.padded 6 microsecond) = microsecond := by
      rw [fractionMicroseconds, List.take_left' hlength, Decimal.digitsValue_padded]
    rw [if_neg hzero, List.cons_append]
    simp only [decide_true, Bool.true_or, if_true, htake, hdrop]
    cases htext : Decimal.padded 6 microsecond with
    | nil => rw [htext] at hlength; cases hlength
    | cons c ds =>
      rw [htext] at hvalue
      simp only [hvalue]

theorem timePart_text (t : TimeOfDay) {s : List Char} (hs : EndsTime s) :
    timePart (t.text ++ s) = some (t, s) := by
  obtain ⟨hour, minute, second, microsecond, valid⟩ := t
  obtain ⟨hhour, hminute, hsecond, hmicrosecond⟩ := valid
  simp only [TimeOfDay.text, List.append_assoc, List.cons_append, timePart]
  rw [fixedDigits_padded (by decide) (by omega)]
  simp only [Option.bind_eq_bind, Option.bind_some, expect, if_true]
  rw [fixedDigits_padded (by decide) (by omega)]
  simp only [Option.bind_some]
  rw [secondsPart_text hsecond hmicrosecond hs]
  simp only [Option.bind_some, TimeOfDay.ofParts?, hhour, hminute, hsecond, hmicrosecond, and_self,
    dite_true, Option.pure_def]

theorem endsTime_offset (offset : Option Offset) :
    EndsTime ((offset.map Offset.shortText).getD []) := by
  intro c r h
  cases offset with
  | none => cases h
  | some o =>
    simp only [Option.map_some, Option.getD_some, Offset.shortText] at h
    split at h
    · cases h
      decide
    · rw [Offset.minutesText] at h
      cases h
      unfold Offset.sign
      split <;> decide

theorem offsetPart_text {o : Offset} (h : o.seconds % 60 = 0) :
    offsetPart o.shortText = some (some o) := by
  unfold Offset.shortText
  by_cases hzero : o.seconds = 0
  · rw [if_pos hzero]
    have hutc : o = Offset.utc := by
      obtain ⟨seconds, valid⟩ := o
      simp only at hzero
      subst hzero
      rfl
    rw [hutc]
    rfl
  · have hsign : o.sign = '+' ∨ o.sign = '-' := by
      unfold Offset.sign
      split
      · exact .inr rfl
      · exact .inl rfl
    have hletter : (o.sign = 'Z' || o.sign = 'z' : Bool) = false := by
      rcases hsign with hsign | hsign <;> rw [hsign] <;> rfl
    have hmark : (o.sign = '+' || o.sign = '-' || o.sign = '−' : Bool) = true := by
      rcases hsign with hsign | hsign <;> rw [hsign] <;> rfl
    have hvalid := o.valid
    have hminutes : o.seconds.natAbs / 60 % 60 < 60 := Nat.mod_lt _ (by decide)
    -- this is where an offset with seconds in it would be lost
    have hsize : (((o.seconds.natAbs / 3600 : Nat) : Int) * 60 +
        ((o.seconds.natAbs / 60 % 60 : Nat) : Int)) * 60 = o.seconds.natAbs := by
      omega
    rw [if_neg hzero, Offset.minutesText, List.cons_append, offsetPart]
    simp only [hletter, hmark, Bool.false_eq_true, if_false, if_true]
    rw [fixedDigits_padded (by decide) (by omega)]
    simp only [Option.bind_eq_bind, Option.bind_some, expect, if_true, Option.getD_some]
    rw [← List.append_nil (Decimal.padded 2 (o.seconds.natAbs / 60 % 60)),
      fixedDigits_padded (by decide) (by omega)]
    simp only [Option.bind_some, hminutes, hsize, decide_true, List.isEmpty_nil, Bool.and_self,
      if_true, Offset.sign_mul, Offset.ofSeconds?, hvalid, dite_true, Option.map_some]

/-- **A point of time with an offset in minutes is read from its own text.** -/
theorem read_documentText {t : Timestamp} (h : t.InMinutes) :
    read (.str t.documentText) = .ok t := by
  obtain ⟨date, time, clock⟩ := t
  obtain ⟨offset, rfl, hminutes⟩ := h
  have htext : (Clock.ofOffset offset).offset? = offset := by
    cases offset <;> rfl
  have hoffset : offsetPart ((offset.map Offset.shortText).getD []) = some offset := by
    cases offset with
    | none => rfl
    | some o => exact offsetPart_text (hminutes o rfl)
  have hafter : afterDate ('T' :: (time.text ++ (offset.map Offset.shortText).getD [])) =
      some (time, offset) := by
    rw [afterDate, timePart_text time (endsTime_offset offset)]
    simp only [isDivider, decide_true, Bool.true_or, if_true, Option.bind_eq_bind,
      Option.bind_some, hoffset, Option.pure_def]
  have hdate : Date.ofParts? date.year date.month date.day = some date := by
    rw [Date.ofParts?, dif_pos date.valid]
  rw [read, documentText, Timestamp.offset, htext, String.toList_ofList, localText,
    List.append_assoc, List.cons_append, readText, dateParts_text]
  simp only [hafter, hdate]

end Timestamp

end Dataspace
