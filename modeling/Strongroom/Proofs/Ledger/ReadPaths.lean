import Strongroom.Proofs.Ledger.Accessible

/-!
# All read paths agree

There are four ways to ask who can read what: everything that a principal can open, what it can open
of one secret, whether it can read a secret, and the list of all secrets with the recipients of
their wraps.  The first walks the whole table of wraps, the others look at the one range of keys
where the wraps of a secret stand.  On a ledger that a run can reach these are parts of one walk:
the range of a secret holds the wraps of that secret, in the same order
(`Intact.scanWraps_eq_filter`), and the ranges follow each other as the secrets do in the list,

    all wraps  =  s₁'s wraps ++ s₂'s wraps ++ ⋯        (`Intact.eq_flatMap_secrets`),

for no name of a secret has a zero byte.  Everything else is a filter on these lists.
-/

namespace Strongroom

namespace Ledger

variable {l : Ledger} {name : String} {p : Principal} {ws : List (Bytes × Wrap)}
variable {secrets : List Secret}

/-! ### One walk and many ranges -/

/-- **The range of a secret holds its wraps**, in the order of the whole table. -/
theorem Intact.scanWraps_eq_filter (h : l.Intact) (hws : l.scanWraps none = .ok ws)
    (secret : String) :
    l.scanWraps (some secret) = .ok (ws.filter fun x => x.2.secret = secret) := by
  obtain ⟨found, hfound⟩ := exists_scanWraps h.wraps (some secret)
  have hsame : found = ws.filter fun x => x.2.secret = secret := by
    refine Table.eq_of_mem_iff (pairwise_of_scanWraps_eq_ok hfound)
      ((pairwise_of_scanWraps_eq_ok hws).filter _) fun x => ?_
    rw [List.mem_filter, h.mem_scanWraps hfound, h.mem_scanWraps hws]
    simp
  rw [hfound, hsame]

/-- The secrets that are read come in the byte order of their names. -/
theorem Intact.pairwise_secrets (h : l.Intact) (hall : all Secret.layout l.secrets = .ok secrets) :
    (secrets.map (·.name)).Pairwise fun m n => utf8 m < utf8 n :=
  List.pairwise_map.2 <| h.secrets.pairwise_of_all_eq_ok (fun _ _ hfit => hfit.key) hall

theorem Intact.mem_secrets_iff (h : l.Intact) (hall : all Secret.layout l.secrets = .ok secrets)
    {s : Secret} : s ∈ secrets ↔ l.secret? s.name = some s := by
  rw [mem_of_all_eq_ok hall, secret?, record?_eq_some_iff]
  constructor
  · rintro ⟨row, hrow, hdecode⟩
    obtain ⟨s', hs', hfit⟩ := h.secrets row hrow
    obtain rfl : s = s' := Except.ok.inj (hdecode.symm.trans hs')
    exact ⟨row.2, Table.get?_eq_some_iff.2 (hfit.key ▸ hrow), hdecode⟩
  · rintro ⟨row, hrow, hdecode⟩
    exact ⟨_, Table.get?_eq_some_iff.1 hrow, hdecode⟩

/-- **The whole table is the ranges of the secrets one after another**, in the order in which the
secrets are read. -/
theorem Intact.eq_flatMap_secrets (h : l.Intact) (hws : l.scanWraps none = .ok ws)
    (hall : all Secret.layout l.secrets = .ok secrets) :
    ws = secrets.flatMap fun s => ws.filter fun x => x.2.secret = s.name := by
  have hsplit := eq_flatMap_of_wrapKey (fun x => x.2.secret) (pairwise_of_scanWraps_eq_ok hws)
    (fun x hx => (fits_of_mem_scanWraps h.wraps hws hx).key) (h.pairwise_secrets hall) ?_ ?_
  · rwa [List.flatMap_map] at hsplit
  · -- an accepted name has no zero byte
    intro n hn
    obtain ⟨s, hs, rfl⟩ := List.mem_map.1 hn
    have hfit := h.secrets.fits_of_record? ((h.mem_secrets_iff hall).1 hs)
    exact zero_notMem_utf8 (isNameChar_of_checkName hfit.name)
  · intro x hx
    obtain ⟨s, hs⟩ := h.exists_secret? (fits_of_mem_scanWraps h.wraps hws hx).secret
    have hname : s.name = x.2.secret := h.name_of_secret? hs
    rw [← hname] at hs ⊢
    exact List.mem_map_of_mem ((h.mem_secrets_iff hall).2 hs)

/-! ### What each path shows -/

/-- What a principal gets through some wraps. -/
def opened (l : Ledger) (p : Principal) (ws : List (Bytes × Wrap)) : List AccessibleSecret :=
  (ws.filter fun x => p.opens x.2.recipient).map fun x => l.through x.2

/-- A secret with the recipients of those of some wraps that are for it. -/
def summary (ws : List (Bytes × Wrap)) (s : Secret) : SecretSummary :=
  ⟨s.name, s.createdBy, (ws.filter fun x => x.2.secret = s.name).map (·.2.recipient)⟩

theorem Intact.listSecrets_eq_ok (h : l.Intact) (hws : l.scanWraps none = .ok ws)
    (hall : all Secret.layout l.secrets = .ok secrets) :
    l.listSecrets = .ok (secrets.map (summary ws)) := by
  rw [listSecrets, hall]
  refine mapM_eq_ok fun s _ => ?_
  rw [h.scanWraps_eq_filter hws]
  rfl

theorem Intact.fetchSecret_eq_ok (h : l.Intact) (hp : l.getPrincipal name = .ok p)
    (hws : l.scanWraps none = .ok ws) {secret : String} (hthere : has l.secrets secret = true) :
    l.fetchSecret name secret = .ok (l.opened p (ws.filter fun x => x.2.secret = secret)) := by
  refine h.accessible_eq_ok hp (fun s hs => ?_) (h.scanWraps_eq_filter hws secret)
  rwa [← Option.mem_some.1 hs]

theorem Intact.fetchAccessible_eq_ok (h : l.Intact) (hp : l.getPrincipal name = .ok p)
    (hws : l.scanWraps none = .ok ws) : l.fetchAccessible name = .ok (l.opened p ws) :=
  h.accessible_eq_ok hp (fun s hs => absurd hs (Option.not_mem_none s)) hws

/-- What comes through the wraps of all secrets comes through those of the single secrets. -/
theorem opened_flatMap (l : Ledger) (p : Principal) (secrets : List Secret)
    (range : Secret → List (Bytes × Wrap)) :
    l.opened p (secrets.flatMap range) = (secrets.map fun s => l.opened p (range s)).flatten := by
  rw [opened, List.filter_flatMap, List.map_flatMap]
  rfl

theorem map_via_opened (l : Ledger) (p : Principal) (ws : List (Bytes × Wrap)) :
    (l.opened p ws).map (·.via) = (ws.map (·.2.recipient)).filter p.opens := by
  rw [opened, List.map_map, List.filter_map]
  rfl

/-- What a principal gets is a secret of the ledger, with the payload that is stored for it. -/
def Carries (l : Ledger) (found : AccessibleSecret) : Prop :=
  ∃ s, l.secret? found.name = some s ∧ found.payload = s.payload

theorem Intact.carries_of_mem_opened (h : l.Intact) {ws : List (Bytes × Wrap)}
    (hthere : ∀ x ∈ ws, has l.secrets x.2.secret = true) {found : AccessibleSecret}
    (hfound : found ∈ l.opened p ws) : l.Carries found := by
  obtain ⟨x, hx, rfl⟩ := List.mem_map.1 hfound
  obtain ⟨s, hs⟩ := h.exists_secret? (hthere x (List.mem_of_mem_filter hx))
  refine ⟨s, hs, ?_⟩
  rw [through, hs]
  rfl

/-- Whoever is there can read a secret exactly if it gets something of it. -/
theorem Intact.exists_canRead (h : l.Intact) (hp : l.getPrincipal name = .ok p) (secret : String) :
    ∃ b, l.canRead name secret = .ok b ∧
      (b = true ↔ ∃ found, l.fetchSecret name secret = .ok found ∧ found ≠ []) := by
  obtain ⟨ws, hws⟩ := exists_scanWraps h.wraps none
  rw [canRead]
  by_cases hthere : has l.secrets secret = true
  · rw [h.fetchSecret_eq_ok hp hws hthere]
    exact ⟨_, rfl, by simp⟩
  · rw [fetchSecret_eq_error hp (by simpa using hthere)]
    exact ⟨false, rfl, by simp⟩

/-- What the read paths show to a principal fits together. -/
structure ReadsAgree (l : Ledger) (p : Principal) (summaries : List SecretSummary) : Prop where
  whole : ∃ founds, summaries.mapM (fun s => l.fetchSecret p.name s.name) = .ok founds ∧
    l.fetchAccessible p.name = .ok founds.flatten
  each : ∀ s ∈ summaries, ∃ found, l.fetchSecret p.name s.name = .ok found ∧
    found.map (·.via) = s.recipients.filter (fun r =>
      r = .principal p.name ∨ r = .group p.group ∧ p.group ≠ defaultGroup) ∧
    ∀ a ∈ found, a.name = s.name ∧ l.Carries a
  canRead : ∀ secret, ∃ b, l.canRead p.name secret = .ok b ∧
    (b = true ↔ ∃ found, l.fetchSecret p.name secret = .ok found ∧ found ≠ [])
  carries : ∀ found, l.fetchAccessible p.name = .ok found → ∀ a ∈ found, l.Carries a

theorem Intact.exists_readsAgree (h : l.Intact) (hp : l.principal? name = some p) :
    ∃ summaries, l.listSecrets = .ok summaries ∧ l.ReadsAgree p summaries := by
  obtain rfl := h.name_of_principal? hp
  replace hp := h.getPrincipal_eq_ok_iff.2 hp
  obtain ⟨ws, hws⟩ := exists_scanWraps h.wraps none
  obtain ⟨secrets, hall⟩ := h.secrets.exists_all
  have hthere : ∀ x ∈ ws, has l.secrets x.2.secret = true :=
    fun x hx => (fits_of_mem_scanWraps h.wraps hws hx).secret
  have hfetch : ∀ s ∈ secrets, l.fetchSecret p.name s.name =
      .ok (l.opened p (ws.filter fun x => x.2.secret = s.name)) := by
    intro s hs
    refine h.fetchSecret_eq_ok hp hws ?_
    rw [h.has_secrets, (h.mem_secrets_iff hall).1 hs]
    rfl
  have hwhole := h.fetchAccessible_eq_ok hp hws
  refine ⟨_, h.listSecrets_eq_ok hws hall, ?_, ?_, h.exists_canRead hp, ?_⟩
  · refine ⟨secrets.map fun s => l.opened p (ws.filter fun x => x.2.secret = s.name), ?_, ?_⟩
    · rw [List.mapM_map]
      exact mapM_eq_ok hfetch
    · rw [hwhole, ← opened_flatMap, ← h.eq_flatMap_secrets hws hall]
  · intro _ hs
    obtain ⟨s, hmem, rfl⟩ := List.mem_map.1 hs
    refine ⟨_, hfetch s hmem, ?_, fun a ha => ⟨?_, ?_⟩⟩
    · rw [map_via_opened]
      refine List.filter_congr fun r _ => ?_
      rw [Bool.eq_iff_iff, Principal.opens_iff, decide_eq_true_eq]
    · obtain ⟨x, hx, rfl⟩ := List.mem_map.1 ha
      exact of_decide_eq_true (List.mem_filter.1 (List.mem_of_mem_filter hx)).2
    · exact h.carries_of_mem_opened (fun x hx => hthere x (List.mem_of_mem_filter hx)) ha
  · intro found hfound a ha
    rw [hwhole] at hfound
    cases hfound
    exact h.carries_of_mem_opened hthere ha

end Ledger

/-- **All read paths agree.**  In every ledger that a run can reach, whoever is there can open what
it can open of the single secrets one after another, in the order of the list of secrets.  Of each
secret it gets one thing for each recipient in the list that is the principal itself or its group,
unless that is the default group, with the payload that is stored; and it can read a secret exactly
if it gets something of it. -/
theorem read_paths_agree (cs : List Command) {name : String}
    (hname : Ledger.has (run Ledger.execute .empty cs).2.principals name = true) :
    let l := (run Ledger.execute .empty cs).2
    ∃ p summaries, l.getPrincipal name = .ok p ∧ p.name = name ∧
      l.listSecrets = .ok summaries ∧ l.ReadsAgree p summaries := by
  have h : (run Ledger.execute .empty cs).2.Intact := Ledger.intact_run .empty cs
  obtain ⟨p, hp⟩ := h.exists_principal? hname
  obtain ⟨summaries, hlist, hagree⟩ := h.exists_readsAgree hp
  exact ⟨p, summaries, h.getPrincipal_eq_ok_iff.2 hp, h.name_of_principal? hp, hlist, hagree⟩

/-- Here the principal has two wraps of the one secret. -/
theorem read_paths_agree_sampleRun :
    let l := (run Ledger.execute .empty (sampleRun.take 4)).2
    Ledger.has l.principals "ann" = true ∧ (l.fetchAccessible "ann").map List.length = .ok 2 ∧
      ∃ p summaries, l.getPrincipal "ann" = .ok p ∧ p.name = "ann" ∧
        l.listSecrets = .ok summaries ∧ l.ReadsAgree p summaries := by
  have hann : Ledger.has (run Ledger.execute .empty (sampleRun.take 4)).2.principals "ann" =
      true := by decide +kernel
  exact ⟨hann, by decide +kernel, read_paths_agree (sampleRun.take 4) hann⟩

end Strongroom
