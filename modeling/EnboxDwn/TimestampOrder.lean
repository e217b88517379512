import EnboxDwn.Timestamp

/-! Timestamps that are moved keep their order, and a timestamp can always be passed by a later one.
Leap seconds are accepted, and the calendar of the platform does not have them. -/
namespace EnboxDwn
namespace Time
open FixedDigits Gregorian

/-! ## Fields on the calendar -/

def Fields.date (f : Fields) : Date := ⟨f.year, f.month - 1, f.day⟩

structure Fields.Accepted (f : Fields) : Prop where
  bounded : f.Bounded
  month : 1 ≤ f.month
  date : f.date.Valid
  hour : f.hour ≤ 23
  minute : f.minute ≤ 59
  second : f.second ≤ 59 ∨ f.IsLeapSecond

/-- Fields that a date of the platform has. -/
structure Fields.OnCalendar (f : Fields) : Prop extends f.Accepted where
  regular : f.second ≤ 59

/-- The fields of the date that is made for the fields. -/
def Fields.clamped (f : Fields) : Fields := { f with second := f.setSecond }

/-- Microseconds since 1970. -/
def Fields.instant (f : Fields) : Int :=
  (((dayFromDate f.date * 24 + f.hour) * 60 + f.minute) * 60 + f.second) * 1000000 + f.fraction

theorem setSecond_le {f : Fields} (h : f.Accepted) : f.setSecond ≤ 59 := by
  rw [Fields.setSecond]
  split_ifs with hleap
  · exact le_rfl
  · cases h.second with
    | inl hsecond => exact hsecond
    | inr hsecond => exact absurd hsecond hleap

theorem clamped_onCalendar {f : Fields} (h : f.Accepted) : f.clamped.OnCalendar where
  bounded :=
    ⟨h.bounded.year, h.bounded.month, h.bounded.day, h.bounded.hour, h.bounded.minute,
      (setSecond_le h).trans_lt (by decide), h.bounded.fraction⟩
  month := h.month
  date := h.date
  hour := h.hour
  minute := h.minute
  second := .inl (setSecond_le h)
  regular := setSecond_le h

theorem instant_lt {f g : Fields} (hf : f.OnCalendar) (hg : g.OnCalendar) (h : f.Before g) :
    f.instant < g.instant := by
  have hfhour := hf.hour
  have hfminute := hf.minute
  have hfsecond := hf.regular
  have hffraction := hf.bounded.fraction
  have hfmonth := hf.month
  have hgmonth := hg.month
  by_cases hdate : f.year = g.year ∧ f.month = g.month ∧ f.day = g.day
  · have hsame : f.date = g.date := by
      rw [Fields.date, Fields.date, hdate.1, hdate.2.1, hdate.2.2]
    simp only [Fields.instant, hsame]
    simp only [Fields.Before] at h
    omega
  · have hdays := dayFromDate_lt hf.date hg.date (by
      simp only [Fields.date]
      simp only [Fields.Before] at h
      omega)
    simp only [Fields.instant]
    omega

theorem before_of_instant {f g : Fields} (hf : f.OnCalendar) (hg : g.OnCalendar)
    (h : f.instant < g.instant) : f.Before g := by
  rcases before_total f g with hbefore | heq | hafter
  · exact hbefore
  · rw [heq] at h
    omega
  · have hgf := instant_lt hg hf hafter
    omega

/-! ## Dates of the platform -/

theorem makeDay_eq {year month date : Int} (h : 0 ≤ month ∧ month < 12) :
    makeDay year month date = dayFromDate ⟨year, month.toNat, date⟩ := by
  have hdiv : month / 12 = 0 := by omega
  have hmod : month % 12 = month := by omega
  rw [makeDay, hdiv, hmod, Int.add_zero]

theorem epoch_start : setUTCHours 0 0 0 0 0 = 0 := rfl

/-- The day before the first of a month is the last of the month before. -/
theorem daysInUtcMonth_eq {year : Int} {month : Nat} (h : month < 12) :
    daysInUtcMonth year ((month : Int) + 1) = daysBefore year (month + 1) - daysBefore year month := by
  have hlast : makeDay year ((month : Int) + 1) 0 =
      dayFromDate ⟨year, month, daysBefore year (month + 1) - daysBefore year month⟩ := by
    by_cases hend : month = 11
    · have hyear := dayFromYear_succ year
      subst hend
      simp only [makeDay, dayFromDate]
      have hmonth : ((11 : Nat) : Int) + 1 = 12 := rfl
      rw [hmonth, Int.ediv_self (by omega), Int.emod_self, hyear]
      simp only [daysBefore, Int.toNat_zero]
      omega
    · rw [makeDay_eq (by omega)]
      have hmonth : ((month : Int) + 1).toNat = month + 1 := by omega
      simp only [dayFromDate, hmonth]
      omega
  have hvalid : Date.Valid ⟨year, month, daysBefore year (month + 1) - daysBefore year month⟩ := by
    have hlength := daysBefore_succ year h
    exact ⟨h, by simp only; omega, by simp only; omega⟩
  rw [daysInUtcMonth, getUTCDate, setUTCFullYear, epoch_start, hlast]
  have hday : ∀ day : Int, (day * msPerDay + 0 % msPerDay) / msPerDay = day := by
    intro day
    simp only [msPerDay]
    omega
  rw [hday, dateFromDay_dayFromDate hvalid]

theorem validDate_iff {f : Fields} (hmonth : 1 ≤ f.month ∧ f.month ≤ 12) :
    f.date.Valid ↔ 1 ≤ f.day ∧ (f.day : Int) ≤ daysInUtcMonth f.year f.month := by
  have hcast : (f.month : Int) = ((f.month - 1 : Nat) : Int) + 1 := by omega
  rw [hcast, daysInUtcMonth_eq (by omega)]
  simp only [Fields.date, Date.Valid]
  omega

theorem getters {date : Date} (hdate : date.Valid) (hour minute second millisecond : Int)
    (hhour : 0 ≤ hour ∧ hour ≤ 23) (hminute : 0 ≤ minute ∧ minute ≤ 59)
    (hsecond : 0 ≤ second ∧ second ≤ 59) (hmillisecond : 0 ≤ millisecond ∧ millisecond ≤ 999)
    {time : Int}
    (htime : time = dayFromDate date * msPerDay + makeTime hour minute second millisecond) :
    getUTCFullYear time = date.year ∧ getUTCMonth time = date.month ∧ getUTCDate time = date.day ∧
      getUTCHours time = hour ∧ getUTCMinutes time = minute ∧ getUTCSeconds time = second := by
  have hday : time / msPerDay = dayFromDate date := by
    rw [htime]
    simp only [msPerDay, makeTime]
    omega
  simp only [getUTCFullYear, getUTCMonth, getUTCDate, hday, dateFromDay_dayFromDate hdate,
    getUTCHours, getUTCMinutes, getUTCSeconds, true_and]
  rw [htime]
  simp only [msPerDay, makeTime]
  omega

/-! ## Parsing -/

def Fields.time (f : Fields) : Int :=
  dayFromDate f.date * msPerDay +
    makeTime f.hour f.minute f.setSecond ((f.fraction / 1000 : Nat) : Int)

theorem made_time {f : Fields} (h : f.Accepted) :
    setUTCHours (setUTCFullYear (setUTCHours 0 0 0 0 0) f.year (f.month - 1) f.day) f.hour f.minute
      f.setSecond ((f.fraction / 1000 : Nat) : Int) = f.time := by
  have hmonth := h.month
  have hlast : f.month - 1 < 12 := h.date.1
  have hindex : ((f.month : Int) - 1).toNat = f.month - 1 := by omega
  rw [setUTCHours, setUTCFullYear, epoch_start, makeDay_eq (by omega), hindex, Fields.time,
    Fields.date]
  have hday : ∀ day : Int, (day * msPerDay + 0 % msPerDay) / msPerDay = day := by
    intro day
    simp only [msPerDay]
    omega
  rw [hday]

theorem instant_clamped {f : Fields} :
    f.time * 1000 + (f.fraction % 1000 : Nat) = f.clamped.instant := by
  simp only [Fields.time, Fields.instant, Fields.clamped, Fields.date, makeTime, msPerDay]
  omega

theorem refused_iff {f : Fields} (hbounded : f.Bounded) :
    (f.month < 1 ∨ f.month > 12 ∨ f.day < 1 ∨ (f.day : Int) > daysInUtcMonth f.year f.month ∨
        f.hour > 23 ∨ f.minute > 59 ∨ (f.second > 59 ∧ ¬f.IsLeapSecond)) ↔ ¬f.Accepted := by
  constructor
  · intro hrefused h
    have hmonth := h.month
    have hlast : f.month - 1 < 12 := h.date.1
    have hday := (validDate_iff ⟨hmonth, by omega⟩).mp h.date
    have hhour := h.hour
    have hminute := h.minute
    have hsecond := h.second
    rcases hrefused with h | h | h | h | h | h | h
    all_goals first
      | omega
      | exact hsecond.elim (fun hsecond => by omega) h.2
  · intro hnot
    by_contra hnone
    push Not at hnone
    obtain ⟨hmonth, hlast, hday, hlength, hhour, hminute, hsecond⟩ := hnone
    apply hnot
    refine ⟨hbounded, hmonth, (validDate_iff ⟨hmonth, hlast⟩).mpr ⟨hday, hlength⟩, hhour, hminute, ?_⟩
    by_cases hregular : f.second ≤ 59
    · exact .inl hregular
    · exact .inr (hsecond (by omega))

theorem parseTimestamp_text {f : Fields} (h : f.Accepted) :
    parseTimestamp (text f) = some ⟨f.time, f.fraction % 1000⟩ := by
  have hmatch : matchTimestamp (text f) = some f := matchTimestamp_iff.mpr ⟨h.bounded, rfl⟩
  have hsecond := setSecond_le h
  have hhour := h.hour
  have hminute := h.minute
  have hfraction := h.bounded.fraction
  have hmonth := h.month
  obtain ⟨hyears, hmonths, hdays, hhours, hminutes, hseconds⟩ := getters h.date f.hour f.minute
    f.setSecond (f.fraction / 1000 : Nat) (by omega) (by omega) (by omega) (by omega) rfl
  change getUTCFullYear f.time = _ at hyears
  change getUTCMonth f.time = _ at hmonths
  change getUTCDate f.time = _ at hdays
  change getUTCHours f.time = _ at hhours
  change getUTCMinutes f.time = _ at hminutes
  change getUTCSeconds f.time = _ at hseconds
  simp only [parseTimestamp, hmatch]
  rw [if_neg (fun hrefused => (refused_iff h.bounded).mp hrefused h), made_time h, if_neg]
  simp only [hyears, hmonths, hdays, hhours, hminutes, hseconds, Fields.date]
  omega

/-- Exactly the accepted fields are parsed. -/
theorem parseTimestamp_some {timestamp : List Char} {p : ParsedTimestamp}
    (h : parseTimestamp timestamp = some p) :
    ∃ f : Fields, timestamp = text f ∧ f.Accepted ∧ p = ⟨f.time, f.fraction % 1000⟩ := by
  have hparse := h
  rw [parseTimestamp] at h
  split at h
  · cases h
  · rename_i f hmatch
    obtain ⟨hbounded, rfl⟩ := matchTimestamp_iff.mp hmatch
    have haccepted : f.Accepted := by
      by_contra hnot
      simp only [if_pos ((refused_iff hbounded).mpr hnot)] at h
      cases h
    rw [parseTimestamp_text haccepted, Option.some.injEq] at hparse
    exact ⟨f, rfl, haccepted, hparse.symm⟩

theorem validateTimestamp_iff {timestamp : List Char} :
    validateTimestamp timestamp = .ok () ↔ ∃ f : Fields, timestamp = text f ∧ f.Accepted := by
  rw [validateTimestamp]
  constructor
  · intro h
    cases hparse : parseTimestamp timestamp with
    | none => simp [hparse] at h
    | some p =>
      obtain ⟨f, htext, haccepted, -⟩ := parseTimestamp_some hparse
      exact ⟨f, htext, haccepted⟩
  · rintro ⟨f, rfl, haccepted⟩
    rw [parseTimestamp_text haccepted]

/-! ## Formatting -/

def fieldsOf (time : Int) (microsecond : Nat) : Fields where
  year := (getUTCFullYear time).toNat
  month := (getUTCMonth time + 1).toNat
  day := (getUTCDate time).toNat
  hour := (getUTCHours time).toNat
  minute := (getUTCMinutes time).toNat
  second := (getUTCSeconds time).toNat
  fraction := (getUTCMilliseconds time * 1000).toNat + microsecond

theorem fieldsOf_onCalendar {time : Int} {microsecond : Nat} (hmicrosecond : microsecond < 1000)
    (hyear : 0 ≤ getUTCFullYear time ∧ getUTCFullYear time ≤ 9999) :
    (fieldsOf time microsecond).OnCalendar ∧
      (fieldsOf time microsecond).instant = time * 1000 + microsecond := by
  have hvalid := valid_dateFromDay (time / msPerDay)
  have hday := dayFromDate_dateFromDay (time / msPerDay)
  have hdate : (fieldsOf time microsecond).date = dateFromDay (time / msPerDay) := by
    have hfirst := hvalid.2.1
    generalize hd : dateFromDay (time / msPerDay) = d at *
    cases d
    simp only [getUTCFullYear, hd] at hyear
    simp only [Fields.date, fieldsOf, getUTCFullYear, getUTCMonth, getUTCDate, hd, Date.mk.injEq]
    simp only at hfirst
    omega
  have hmonth : 1 ≤ (fieldsOf time microsecond).month ∧ (fieldsOf time microsecond).month ≤ 12 := by
    have hindex := hvalid.1
    simp only [fieldsOf, getUTCMonth]
    omega
  have hbounded : (fieldsOf time microsecond).Bounded := by
    have hlast := hvalid.day_le
    simp only [getUTCFullYear] at hyear
    constructor
    all_goals
      simp only [fieldsOf, getUTCFullYear, getUTCMonth, getUTCDate, getUTCHours, getUTCMinutes,
        getUTCSeconds, getUTCMilliseconds] at *
      omega
  have hclock : (fieldsOf time microsecond).hour ≤ 23 ∧ (fieldsOf time microsecond).minute ≤ 59 ∧
      (fieldsOf time microsecond).second ≤ 59 := by
    simp only [fieldsOf, getUTCHours, getUTCMinutes, getUTCSeconds]
    omega
  refine ⟨⟨⟨hbounded, hmonth.1, ?_, hclock.1, hclock.2.1, .inl hclock.2.2⟩, hclock.2.2⟩, ?_⟩
  · rw [hdate]
    exact hvalid
  · simp only [Fields.instant, hdate, hday]
    simp only [fieldsOf, getUTCHours, getUTCMinutes, getUTCSeconds, getUTCMilliseconds, msPerDay]
    omega

theorem calendarText_eq {time : Int} {microsecond : Nat}
    (h : (fieldsOf time microsecond).Bounded) :
    calendarText time microsecond = text (fieldsOf time microsecond) := by
  have hyear : pad 4 (getUTCFullYear time).toNat = _ := pad_eq (by decide) h.year
  have hmonth : pad 2 (getUTCMonth time + 1).toNat = _ := pad_eq (by decide) h.month
  have hday : pad 2 (getUTCDate time).toNat = _ := pad_eq (by decide) h.day
  have hhour : pad 2 (getUTCHours time).toNat = _ := pad_eq (by decide) h.hour
  have hminute : pad 2 (getUTCMinutes time).toNat = _ := pad_eq (by decide) h.minute
  have hsecond : pad 2 (getUTCSeconds time).toNat = _ := pad_eq (by decide) h.second
  have hfraction : pad 6 ((getUTCMilliseconds time * 1000).toNat + microsecond) = _ :=
    pad_eq (by decide) h.fraction
  rw [calendarText, hyear, hmonth, hday, hhour, hminute, hsecond, hfraction, text]
  rfl

/-- What is formatted is the text of the fields of the instant. -/
theorem formatUtcTimestamp_ok {time : Option Int} {microsecond : Nat}
    (hmicrosecond : microsecond < 1000) {result : List Char}
    (h : formatUtcTimestamp time microsecond = .ok result) :
    ∃ (epochMilliseconds : Int) (f : Fields), time = some epochMilliseconds ∧ result = text f ∧
      f.OnCalendar ∧ f.instant = epochMilliseconds * 1000 + microsecond := by
  cases time with
  | none => cases h
  | some time =>
    simp only [formatUtcTimestamp] at h
    split_ifs at h with hsafe hrange hyear
    obtain ⟨hcalendar, hinstant⟩ := fieldsOf_onCalendar hmicrosecond
      (show 0 ≤ getUTCFullYear time ∧ getUTCFullYear time ≤ 9999 by omega)
    refine ⟨time, _, rfl, ?_, hcalendar, hinstant⟩
    rw [← Except.ok.inj h]
    exact calendarText_eq hcalendar.bounded

/-! ## Moved timestamps -/

theorem createOffsetTimestamp_ok {now : Int} {seconds : Int} {f : Fields} (hf : f.Accepted)
    {result : List Char}
    (h : createOffsetTimestamp now (some seconds) (some (text f)) = .ok result) :
    ∃ g : Fields, result = text g ∧ g.OnCalendar ∧
      g.instant = f.clamped.instant + seconds * 1000000 := by
  simp only [createOffsetTimestamp, parseTimestamp_text hf, requireWholeNumber] at h
  change formatUtcTimestamp (some (f.time + seconds * 1000)) (f.fraction % 1000) = .ok result at h
  obtain ⟨time, g, htime, rfl, hcalendar, hinstant⟩ :=
    formatUtcTimestamp_ok (Nat.mod_lt _ (by omega)) h
  refine ⟨g, rfl, hcalendar, ?_⟩
  have hclamped := instant_clamped (f := f)
  rw [hinstant, ← hclamped]
  have heq := Option.some.inj htime
  omega

/-- A leap second behind a part of the second before it that it does not pass. -/
def Fields.Folded (f g : Fields) : Prop :=
  g.IsLeapSecond ∧ f.year = g.year ∧ f.month = g.month ∧ f.day = g.day ∧ f.hour = 23 ∧
    f.minute = 59 ∧ f.second = 59 ∧ g.fraction ≤ f.fraction

theorem clamped_regular {f : Fields} (h : ¬f.IsLeapSecond) : f.clamped = f := by
  rw [Fields.clamped, Fields.setSecond, if_neg h]

theorem clamped_leap {f : Fields} (h : f.IsLeapSecond) : f.clamped = { f with second := 59 } := by
  rw [Fields.clamped, Fields.setSecond, if_pos h]

theorem clamped_before {f g : Fields} (hf : f.Accepted) (hg : g.Accepted) (h : f.Before g)
    (hnot : ¬f.Folded g) : f.clamped.Before g.clamped := by
  have hfsecond := hf.second
  have hgsecond := hg.second
  by_cases hfleap : f.IsLeapSecond
  · rw [clamped_leap hfleap]
    obtain ⟨hhour, hminute, hsecond⟩ := hfleap
    by_cases hgleap : g.IsLeapSecond
    · rw [clamped_leap hgleap]
      obtain ⟨hhour', hminute', hsecond'⟩ := hgleap
      simp only [Fields.Before, hhour, hminute, hsecond, hhour', hminute', hsecond', lt_irrefl,
        true_and, false_or] at h ⊢
      exact h
    · rw [clamped_regular hgleap]
      simp only [Fields.Before, hhour, hminute, hsecond] at h ⊢
      omega
  · rw [clamped_regular hfleap]
    by_cases hgleap : g.IsLeapSecond
    · rw [clamped_leap hgleap]
      have hregular : f.second ≤ 59 := hfsecond.resolve_right hfleap
      simp only [Fields.Folded, hgleap, true_and] at hnot
      obtain ⟨hhour', hminute', hsecond'⟩ := hgleap
      simp only [Fields.Before, hhour', hminute', hsecond'] at h ⊢
      omega
    · rw [clamped_regular hgleap]
      exact h

/-! ## The next timestamp -/

def front (f : Fields) : List Char :=
  fixed 4 f.year ++ '-' :: (fixed 2 f.month ++ '-' :: (fixed 2 f.day ++ 'T' :: (fixed 2 f.hour ++
    ':' :: (fixed 2 f.minute ++ ':' :: (fixed 2 f.second ++ ['.'])))))

theorem text_front (f : Fields) : text f = front f ++ (fixed 6 f.fraction ++ ['Z']) := by
  simp [text, front]

theorem length_front (f : Fields) : (front f).length = 20 := by simp [front]

theorem sliced_fraction {f : Fields} (h : f.Bounded) :
    value (((text f).drop 20).take 6) = f.fraction ∧ (text f).take 20 = front f := by
  rw [text_front, List.drop_left' (length_front f), List.take_left' (length_front f),
    List.take_left' (length_fixed 6 f.fraction)]
  exact ⟨value_fixed h.fraction, rfl⟩

/-- Behind the last microsecond of a second comes the next instant of the calendar; behind the last
one of a leap second, too. -/
theorem before_next_instant {f g : Fields} (hg : g.OnCalendar)
    (hfraction : f.fraction = 999999) (h : f.clamped.Before g) : f.Before g := by
  have hregular := hg.regular
  have hbounded := hg.bounded.fraction
  by_cases hleap : f.IsLeapSecond
  · rw [clamped_leap hleap] at h
    obtain ⟨hhour, hminute, hsecond⟩ := hleap
    have hghour := hg.hour
    have hgminute := hg.minute
    simp only [Fields.Before, hhour, hminute, hsecond, hfraction] at h ⊢
    omega
  · rwa [clamped_regular hleap] at h

/-- The first timestamp that the program puts behind a floor is behind it. -/
theorem nextFloorTimestamp_ok {f : Fields} (hf : f.Accepted) {microsecond : Nat}
    {next : List Char} (h : nextFloorTimestamp (text f) ⟨f.time, microsecond⟩ = .ok next) :
    ∃ g : Fields, next = text g ∧ g.Accepted ∧ f.Before g := by
  obtain ⟨hvalue, hfront⟩ := sliced_fraction hf.bounded
  simp only [nextFloorTimestamp, hvalue, hfront] at h
  split_ifs at h with hlast
  · obtain ⟨time, g, htime, rfl, hcalendar, hinstant⟩ := formatUtcTimestamp_ok (by omega) h
    refine ⟨g, rfl, hcalendar.toAccepted, before_next_instant hcalendar hlast ?_⟩
    apply before_of_instant (clamped_onCalendar hf) hcalendar
    rw [← instant_clamped, hinstant, hlast, ← Option.some.inj htime]
    omega
  · have hbounded := hf.bounded.fraction
    have hpad : pad 6 (f.fraction + 1) = fixed 6 (f.fraction + 1) := pad_eq (by decide) (by omega)
    refine ⟨{ f with fraction := f.fraction + 1 }, ?_, ?_, ?_⟩
    · rw [← Except.ok.inj h, hpad, text_front, List.append_assoc]
      rfl
    · exact ⟨⟨hf.bounded.year, hf.bounded.month, hf.bounded.day, hf.bounded.hour,
        hf.bounded.minute, hf.bounded.second, by simp only; omega⟩, hf.month, hf.date, hf.hour,
        hf.minute, hf.second⟩
    · simp [Fields.Before]

theorem createTimestampAfter_ok {f : Fields} (hf : f.Accepted) {now : Option Int}
    {result : List Char} (h : createTimestampAfter (text f) now = .ok result) :
    ∃ g n : Fields, result = text g ∧ g.Accepted ∧ f.Before g ∧
      formatUtcTimestamp now 0 = .ok (text n) ∧ n.Accepted ∧ ¬g.Before n := by
  simp only [createTimestampAfter, parseTimestamp_text hf] at h
  cases hnext : nextFloorTimestamp (text f) ⟨f.time, f.fraction % 1000⟩ with
  | error error =>
    rw [hnext] at h
    cases h
  | ok next =>
    rw [hnext] at h
    cases hnow : formatUtcTimestamp now 0 with
    | error error =>
      rw [hnow] at h
      cases h
    | ok current =>
      rw [hnow] at h
      obtain ⟨g, rfl, hg, hbefore⟩ := nextFloorTimestamp_ok hf hnext
      obtain ⟨-, n, -, rfl, hn, -⟩ := formatUtcTimestamp_ok (by omega) hnow
      have hresult : (if text n < text g then text g else text n) = result := Except.ok.inj h
      split_ifs at hresult with hlater
      all_goals rw [text_lt_iff hn.bounded hg.bounded] at hlater
      · refine ⟨g, n, hresult.symm, hg, hbefore, rfl, hn.toAccepted, ?_⟩
        simp only [Fields.Before] at hlater ⊢
        omega
      · refine ⟨n, n, hresult.symm, hn.toAccepted, ?_, rfl, hn.toAccepted, ?_⟩
        · simp only [Fields.Before] at hlater hbefore ⊢
          omega
        · simp [Fields.Before]

/-! ## Order is kept -/

/-- One timestamp is a leap second and the other lies in the second before it, at or behind the
same part of a second. -/
def FoldedText (t₁ t₂ : List Char) : Prop :=
  ∃ f g : Fields, matchTimestamp t₁ = some f ∧ matchTimestamp t₂ = some g ∧ f.Folded g

/-- Moving two timestamps keeps their order, unless the later is a leap second that the calendar
folds onto the earlier; and what is made behind a floor is behind the floor and not before now. -/
theorem timestamp_order_kept :
    (∀ (now seconds : Int) (t₁ t₂ r₁ r₂ : List Char), validateTimestamp t₁ = .ok () →
      validateTimestamp t₂ = .ok () → t₁ < t₂ → ¬FoldedText t₁ t₂ →
      createOffsetTimestamp now (some seconds) (some t₁) = .ok r₁ →
      createOffsetTimestamp now (some seconds) (some t₂) = .ok r₂ →
        validateTimestamp r₁ = .ok () ∧ validateTimestamp r₂ = .ok () ∧ r₁ < r₂) ∧
    ∀ (floor result : List Char) (now : Option Int), validateTimestamp floor = .ok () →
      createTimestampAfter floor now = .ok result →
        validateTimestamp result = .ok () ∧ floor < result ∧
          ∃ nowTimestamp, formatUtcTimestamp now 0 = .ok nowTimestamp ∧ ¬result < nowTimestamp := by
  constructor
  · intro now seconds t₁ t₂ r₁ r₂ h₁ h₂ hlt hnot hr₁ hr₂
    obtain ⟨f, rfl, hf⟩ := validateTimestamp_iff.mp h₁
    obtain ⟨g, rfl, hg⟩ := validateTimestamp_iff.mp h₂
    obtain ⟨f', rfl, hf', hfinstant⟩ := createOffsetTimestamp_ok hf hr₁
    obtain ⟨g', rfl, hg', hginstant⟩ := createOffsetTimestamp_ok hg hr₂
    have hfolded : ¬f.Folded g := by
      intro hfolded
      exact hnot ⟨f, g, matchTimestamp_iff.mpr ⟨hf.bounded, rfl⟩,
        matchTimestamp_iff.mpr ⟨hg.bounded, rfl⟩, hfolded⟩
    have hbefore := clamped_before hf hg ((text_lt_iff hf.bounded hg.bounded).mp hlt) hfolded
    have hinstants := instant_lt (clamped_onCalendar hf) (clamped_onCalendar hg) hbefore
    refine ⟨validateTimestamp_iff.mpr ⟨f', rfl, hf'.toAccepted⟩,
      validateTimestamp_iff.mpr ⟨g', rfl, hg'.toAccepted⟩, ?_⟩
    apply text_lt hg'.bounded
    apply before_of_instant hf' hg'
    omega
  · intro floor result now hfloor hresult
    obtain ⟨f, rfl, hf⟩ := validateTimestamp_iff.mp hfloor
    obtain ⟨g, n, rfl, hg, hbefore, hnow, hn, hnot⟩ := createTimestampAfter_ok hf hresult
    refine ⟨validateTimestamp_iff.mpr ⟨g, rfl, hg⟩, text_lt hg.bounded hbefore, text n, hnow, ?_⟩
    rw [text_lt_iff hg.bounded hn.bounded]
    exact hnot

/-- One second on from before and from within a leap second; and behind its last microsecond. -/
theorem timestamp_order_kept_leap :
    (validateTimestamp "2024-12-31T23:59:59.000000Z".toList = .ok () ∧
      validateTimestamp "2025-01-01T00:00:00.000000Z".toList = .ok () ∧
      "2024-12-31T23:59:59.000000Z".toList < "2025-01-01T00:00:00.000000Z".toList) ∧
    validateTimestamp "2025-01-01T00:00:00.000000Z".toList = .ok () ∧
      "2024-12-31T23:59:60.999999Z".toList < "2025-01-01T00:00:00.000000Z".toList ∧
      ∃ nowTimestamp, formatUtcTimestamp (some 0) 0 = .ok nowTimestamp ∧
        ¬"2025-01-01T00:00:00.000000Z".toList < nowTimestamp := by
  have hfolded : ¬FoldedText "2024-12-31T23:59:58.000000Z".toList
      "2024-12-31T23:59:60.000000Z".toList := by
    rintro ⟨f, g, hf, -, hfolded⟩
    have hfields : some f = some ⟨2024, 12, 31, 23, 59, 58, 0⟩ := hf.symm.trans (by decide)
    cases hfields
    exact absurd hfolded.2.2.2.2.2.2.1 (by decide)
  exact ⟨timestamp_order_kept.1 0 1 "2024-12-31T23:59:58.000000Z".toList
      "2024-12-31T23:59:60.000000Z".toList _ _ rfl rfl (by decide) hfolded rfl rfl,
    timestamp_order_kept.2 "2024-12-31T23:59:60.999999Z".toList _ (some 0) rfl rfl⟩

/-- A part of a second that comes before a leap second is not moved to before it. -/
theorem leap_second_folded :
    validateTimestamp "2024-12-31T23:59:59.900000Z".toList = .ok () ∧
    validateTimestamp "2024-12-31T23:59:60.100000Z".toList = .ok () ∧
    "2024-12-31T23:59:59.900000Z".toList < "2024-12-31T23:59:60.100000Z".toList ∧
    ∃ r₁ r₂, createOffsetTimestamp 0 (some 0) (some "2024-12-31T23:59:59.900000Z".toList) = .ok r₁ ∧
      createOffsetTimestamp 0 (some 0) (some "2024-12-31T23:59:60.100000Z".toList) = .ok r₂ ∧
      ¬r₁ < r₂ :=
  ⟨rfl, rfl, by decide, "2024-12-31T23:59:59.900000Z".toList, "2024-12-31T23:59:59.100000Z".toList,
    rfl, rfl, by decide⟩

end Time
end EnboxDwn
