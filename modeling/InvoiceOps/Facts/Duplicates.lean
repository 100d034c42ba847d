/-
Of two invoices with one vendor and one number, the system approves at most
one, however the calls on different invoices interleave. There is no unique
index: each invoice publishes its match row in a commit before the one in
which it reads the others, so of any two, one is seen by the other
(`Recorded.unseen`), unless it was failed or rejected, and then it is not
approved later.
-/
import InvoiceOps.Facts.Interleaved

namespace InvoiceOps

/-! ## From one store to a later one -/

/-- How a row stands in a later store. -/
structure Invoice.Onward (inv inv' : Invoice) : Prop where
  auditLog : inv.auditLog <+: inv'.auditLog
  invoiceMatches : inv.invoiceMatches <+: inv'.invoiceMatches
  extractions : inv.invoiceMatches ≠ [] → inv'.extractions = inv.extractions
  settled : inv.status.isTerminal = true → inv' = inv

def DB.Onward (d d' : DB) : Prop :=
  ∀ i inv, d.invoice i = some inv → ∃ inv', d'.invoice i = some inv' ∧ inv.Onward inv'

section onward
variable {env : Env} {R : World → World → Prop} {c : Call} {a₀ : List Write} {w : World} {inv inv' : Invoice}

theorem Invoice.Onward.refl (inv : Invoice) : inv.Onward inv :=
  ⟨List.prefix_refl _, List.prefix_refl _, fun _ => rfl, fun _ => rfl⟩

theorem Invoice.Onward.trans {inv₁ inv₂ inv₃ : Invoice} (h : inv₁.Onward inv₂) (h' : inv₂.Onward inv₃) :
    inv₁.Onward inv₃ where
  auditLog := h.auditLog.trans h'.auditLog
  invoiceMatches := h.invoiceMatches.trans h'.invoiceMatches
  extractions hne := by
    have hne₂ : inv₂.invoiceMatches ≠ [] := fun he => hne (List.prefix_nil.mp (he ▸ h.invoiceMatches))
    rw [h'.extractions hne₂, h.extractions hne]
  settled hs := by
    have h₂ := h.settled hs
    rw [h'.settled (h₂ ▸ hs), h₂]

theorem DB.Onward.trans {d₁ d₂ d₃ : DB} (h : d₁.Onward d₂) (h' : d₂.Onward d₃) : d₁.Onward d₃ := by
  intro i inv hi
  obtain ⟨inv₂, h₂, ho⟩ := h i inv hi
  obtain ⟨inv₃, h₃, ho'⟩ := h' i inv₂ h₂
  exact ⟨inv₃, h₃, ho.trans ho'⟩

theorem DB.Onward.refl (d : DB) : d.Onward d := fun _ inv hi => ⟨inv, hi, .refl inv⟩

theorem Move.not_isTerminal (hm : Move env R c a₀ w inv inv') : inv.status.isTerminal = false := by
  cases hm with
  | noExtraction reason hs => rcases hs with hs | hs <;> rw [hs] <;> rfl
  | exported key now r e p w₀ hc hs =>
    have hs' : inv.status = .autoApproved ∨ inv.status = .approved := by simpa [exportable] using hs
    rcases hs' with hs | hs <;> rw [hs] <;> rfl
  | extracted _ _ _ hs | extractionFailed _ _ hs | matched _ _ hs | validated _ _ _ _ hs | decided _ _ _ hs
  | reviewed _ _ _ hs => rw [hs]; rfl

/-- **A move leads onward.** -/
theorem Move.onward (h : RowOk inv) (hm : Move env R c a₀ w inv inv') : inv.Onward inv' where
  auditLog := hm.auditLog_prefix
  invoiceMatches := by cases hm <;> simp
  extractions hne := by
    cases hm with
    | extracted _ _ _ hs | extractionFailed _ _ hs =>
      have hlen := h.matched
      rw [hs] at hlen
      exact absurd (List.length_eq_zero_iff.mp hlen) hne
    | _ => rfl
  settled hs := by
    rw [hm.not_isTerminal] at hs
    cases hs

end onward

/-! ## What holds of every state -/

/-- The rows of the store are backed by what was committed before them, and
every store led onward to those after it. -/
structure Recorded (env : Env) (w : World) : Prop where
  backed : Rows (fun w inv => Backed env (Undisturbed inv.id) w inv) w
  trails : ∀ d ∈ w.stores, ∀ i inv, d.invoice i = some inv → Trail .received inv.auditLog inv.status
  onward : w.stores.Pairwise fun d' d => d.Onward d'

section recorded
variable {env : Env} {c : Call} {a₀ : List Write} {i j : Uuid} {w w' : World} {inv inv' : Invoice}

theorem Move.id_eq (hm : Move env R c a₀ w inv inv') : inv'.id = inv.id := by
  cases hm <;> rfl

theorem Fresh.recorded (h : Fresh w) : Recorded env w where
  backed i inv hi := .new w (h.untouched hi)
  trails d hd i inv hi := by
    rw [Txn.World.stores, h.past, List.mem_singleton] at hd
    subst hd
    exact .new (h.untouched hi)
  onward := by
    rw [Txn.World.stores, h.past]
    exact List.pairwise_singleton ..

/-- The store committed last leads on to the next. -/
theorem Act.onward (hb : Rows (fun w inv => Backed env (Undisturbed inv.id) w inv) w)
    (h : Act env (Undisturbed i) c a₀ i w w') : w.now.Onward w'.now := by
  cases h with
  | move hrow hm hch =>
    intro j inv hj
    by_cases hji : j = i
    · subst hji
      obtain rfl := Option.some.inj (hrow.symm.trans hj)
      exact ⟨_, hch.self, hm.onward (hb _ _ hrow).ok⟩
    · exact ⟨inv, (hch.other hji).trans hj, .refl inv⟩
  | _ => exact .refl _

/-- A commit that leads on. -/
theorem Recorded.commit (h : Recorded env w) {d : DB}
    (hb : Rows (fun w inv => Backed env (Undisturbed inv.id) w inv) (w.commit d)) (ho : w.now.Onward d) :
    Recorded env (w.commit d) where
  backed := hb
  trails d' hd' i inv hi := by
    rcases List.mem_cons.mp hd' with rfl | hd'
    · exact (hb i inv hi).trail
    · exact h.trails d' hd' i inv hi
  onward := by
    rw [Txn.World.commit_stores, List.pairwise_cons]
    refine ⟨fun d' hd' => ?_, h.onward⟩
    rcases List.mem_cons.mp hd' with rfl | hd'
    · exact ho
    · exact DB.Onward.trans ((List.pairwise_cons.mp h.onward).1 d' hd') ho

/-- **One act.** -/
theorem Recorded.act (h : Recorded env w) (hact : Act env (Undisturbed i) c a₀ i w w') : Recorded env w' := by
  have hbacked : Rows (fun w inv => Backed env (Undisturbed inv.id) w inv) w' := by
    refine hact.rows (fun hg hb => hb.grows hg) (fun {inv inv'} hi hb hm => ?_) h.backed
    have hid := DB.id_of_invoice hi
    subst hid
    rw [hm.id_eq]
    exact hb.move hi hm
  have honward := hact.onward h.backed
  cases hact with
  | noop | move => exact h.commit hbacked honward
  | _ => exact ⟨hbacked, h.trails, h.onward⟩

theorem Recorded.noop (h : Recorded env w) : Recorded env (w.commit w.now) := by
  have hg : Grows w (w.commit w.now) := ⟨rfl, rfl, List.suffix_cons _ _⟩
  exact h.commit (fun i inv hi => Backed.grows hg (h.backed i inv hi)) (.refl _)

/-- The stores of one run are in one line. -/
theorem Recorded.between (h : Recorded env w) {w₁ w₂ : World} (h₁ : w₁.stores <:+ w₂.stores)
    (h₂ : w₂.stores <:+ w.stores) : w₁.now.Onward w₂.now := by
  have hmem : w₁.now ∈ w₂.now :: w₂.past := h₁.subset List.mem_cons_self
  rcases List.mem_cons.mp hmem with heq | hmem
  · exact heq ▸ .refl _
  · exact (List.pairwise_cons.mp (h.onward.sublist h₂.sublist)).1 _ hmem

/-! ## Rivals -/

/-- The invoice has a match row for the vendor. -/
def Invoice.Names (inv : Invoice) (vendorId : Uuid) : Prop := ∃ m ∈ inv.invoiceMatches, m.vendorId = some vendorId

def Invoice.vendorId (inv : Invoice) : Option Uuid := (latestMatch inv.invoiceMatches).bind (·.vendorId)

def Invoice.number (inv : Invoice) : Option String := inv.result.bind (·.invoice.invoiceNumber)

theorem names_of_latestMatch {vendorId : Uuid} (h : (latestMatch inv.invoiceMatches).bind (·.vendorId) = some vendorId) :
    inv.Names vendorId := by
  obtain ⟨m, hm, hv⟩ := Option.bind_eq_some_iff.mp h
  exact ⟨m, List.mem_of_getLast? hm, hv⟩

theorem Invoice.Onward.names {vendorId : Uuid} (h : inv.Onward inv') (hn : inv.Names vendorId) :
    inv'.Names vendorId := by
  obtain ⟨m, hm, hv⟩ := hn
  exact ⟨m, h.invoiceMatches.subset hm, hv⟩

theorem mem_otherIds {vendorId : Uuid} {d : DB} (hij : i ≠ j) (hj : d.invoice j = some inv)
    (hn : inv.Names vendorId) : j ∈ otherIds i vendorId d := by
  obtain ⟨hmem, hid⟩ := Table.mem_of_get? hj
  subst hid
  refine List.mem_map_of_mem (List.mem_filter.mpr ⟨hmem, ?_⟩)
  obtain ⟨m, hm, hv⟩ := hn
  simpa [hij.symm] using ⟨m, hm, hv⟩

/-- The check for invoice `i` found nobody: each other invoice that was of the
vendor when the others were listed had failed, had been rejected or had
another number when it was looked at, before `w`. -/
def NobodyFound (py : Py) (w : World) (i vendorId : Uuid) (number : String) : Prop :=
  ∃ w₁ : World, w₁.stores <:+ w.stores ∧
    (∃ inv, w₁.now.invoice i = some inv ∧ inv.status = .validating ∧ inv.Names vendorId) ∧
    ∀ j o, j ≠ i → w₁.now.invoice j = some o → o.Names vendorId →
      ∃ (w₂ : World) (o' : Invoice), w₁.stores <:+ w₂.stores ∧ w₂.stores <:+ w.stores ∧
        w₂.now.invoice j = some o' ∧ (excludedFromDuplicateCheck o'.status = true ∨
          sameNumber py (py.lower (py.strip number)) o'.extractions = none)

/-- An invoice that was looked at and is no candidate: here is why. -/
theorem Recorded.looked (h : Recorded env w) {w₁ w₂ : World} {normalized : String} {o : Invoice}
    (hj : w₁.now.invoice j = some o) (hl : Looked env.py (Undisturbed i) normalized j w₁ w₂ none)
    (hw : w₂.stores <:+ w.stores) : ∃ (w₃ : World) (o' : Invoice), w₁.stores <:+ w₃.stores ∧
      w₃.stores <:+ w.stores ∧ w₃.now.invoice j = some o' ∧
      (excludedFromDuplicateCheck o'.status = true ∨ sameNumber env.py normalized o'.extractions = none) := by
  generalize hcand : (none : Option DuplicateCandidate) = cand at hl
  cases hl with
  | missing hR hnone =>
    obtain ⟨o', ho', -⟩ := h.between hR.history hw j o hj
    rw [hnone] at ho'
    cases ho'
  | excluded hR ho' hex => exact ⟨w₂, _, hR.history, hw, ho', .inl hex⟩
  | @compared w' o' _ hR ho' hex hR' =>
    -- The number was read after the status, of a row that is still there.
    obtain ⟨o₂, ho₂, -⟩ := h.between hR'.history hw j o' ho'
    rw [ho₂] at hcand
    exact ⟨w₂, o₂, hR.history.trans hR'.history, hw, ho₂, .inr (Option.map_eq_none_iff.mp hcand.symm)⟩

/-- **A check without candidates found nobody**, whatever the others did
meanwhile. -/
theorem Recorded.nobodyFound (h : Recorded env w) {wᵥ : World} {extracted : ExtractedInvoice} {vendorId : Uuid}
    {number : String} (hsuf : wᵥ.stores <:+ w.stores) (hi : wᵥ.now.invoice i = some inv)
    (hs : inv.status = .validating)
    (hc : Checked env.py (Undisturbed i) i (latestMatch inv.invoiceMatches) extracted wᵥ [])
    (hv : inv.vendorId = some vendorId) (hn : extracted.invoiceNumber = some number) (hne : number ≠ "") :
    NobodyFound env.py w i vendorId number := by
  generalize hnil : ([] : List DuplicateCandidate) = cs at hc
  cases hc with
  | noVendor hnone =>
    rw [Invoice.vendorId, hnone] at hv
    cases hv
  | noNumber hfalse =>
    rw [hn] at hfalse
    exact absurd hfalse (by simpa [Py.truthy] using hne)
  | @checked vendorId' number' w₁ w₂ _ hv' hn' _ hcol hR₁ hR₂ =>
    obtain rfl : vendorId = vendorId' := Option.some.inj (hv.symm.trans hv')
    obtain rfl : number = number' := Option.some.inj (hn.symm.trans hn')
    refine ⟨w₁, hR₁.history.trans hsuf, ⟨inv, hR₁.invoice.symm.trans hi, hs, names_of_latestMatch hv⟩, ?_⟩
    intro j o hji ho hnames
    obtain ⟨w₃, w₄, hR₃, hl, hR₄⟩ := hcol.none_of_nil (.others i) hnil.symm (mem_otherIds hji.symm ho hnames)
    have hw₄ : w₄.stores <:+ w.stores := (hR₄.history.trans hR₂.history).trans hsuf
    obtain ⟨o₃, ho₃, -⟩ := h.between hR₃.history ((hl.rely (.others i)).history.trans hw₄) j o ho
    obtain ⟨w₅, o₅, h₃, h₅, ho₅, hout⟩ := h.looked ho₃ hl hw₄
    exact ⟨w₅, o₅, hR₃.history.trans h₃, h₅, ho₅, hout⟩

/-- The system approves only where the check found nobody. -/
theorem Recorded.nobodyFound_of_autoApproved (h : Recorded env w) (hi : w.now.invoice i = some inv)
    (hauto : AutoApproved inv) {vendorId : Uuid} {number : String} (hv : inv.vendorId = some vendorId)
    (hn : inv.number = some number) (hne : number ≠ "") : NobodyFound env.py w i vendorId number := by
  have hid := DB.id_of_invoice hi
  subst hid
  have hb := h.backed _ inv hi
  obtain ⟨hs, v, e, d, ⟨hval, -, hd⟩, hout⟩ := hb.approved hauto
  obtain ⟨r, v', hr, hval', hjudged⟩ := hb.judged (by rcases hs with hs | hs <;> rw [hs] <;> rfl)
  obtain rfl : v = v' := List.singleton_injective (hval.symm.trans hval')
  have hpassed : v.passed = true := (decideApproval_autoApproved_iff.mp (hd ▸ hout)).1
  obtain ⟨wᵥ, inv₁, cs, hsuf, hown, hvalidating, hmatch, hchecked, hrules, hp⟩ := hjudged
  rw [Invoice.number, hr, Option.bind_some] at hn
  have hnil : cs = [] := candidates_eq_nil hrules (by simpa [hp] using hpassed)
    (by rw [hn]; simpa [Py.truthy] using hne)
  rw [hnil, ← hmatch] at hchecked
  exact h.nobodyFound hsuf hown hvalidating hchecked (by rw [Invoice.vendorId, hmatch]; exact hv) hn hne

/-- **Of two rivals, each approved by the system, neither saw the other.** -/
theorem Recorded.unseen (h : Recorded env w) (hij : i ≠ j) (hi : w.now.invoice i = some inv)
    (hj : w.now.invoice j = some inv') (hauto : AutoApproved inv) (hauto' : AutoApproved inv') {vendorId : Uuid}
    {number : String} (hv : inv.vendorId = some vendorId) (hn : inv.number = some number) (hne : number ≠ "")
    (hsame : sameNumber env.py (env.py.lower (env.py.strip number)) inv'.extractions ≠ none) :
    ∃ w₁ : World, w₁.stores <:+ w.stores ∧ (∃ inv₁, w₁.now.invoice i = some inv₁ ∧ inv₁.Names vendorId) ∧
      ∀ o, w₁.now.invoice j = some o → ¬ o.Names vendorId := by
  obtain ⟨w₁, hw₁, ⟨inv₁, hi₁, -, hnames₁⟩, hothers⟩ := h.nobodyFound_of_autoApproved hi hauto hv hn hne
  refine ⟨w₁, hw₁, ⟨inv₁, hi₁, hnames₁⟩, fun o ho hnames => ?_⟩
  obtain ⟨w₂, o', h₁₂, hw₂, ho', hout⟩ := hothers j o hij.symm ho hnames
  obtain ⟨o'', ho'', hon'⟩ := h.between hw₂ (List.suffix_refl _) j o' ho'
  obtain rfl := Option.some.inj (hj.symm.trans ho'')
  rcases hout with hex | hnone
  · -- Failed and rejected are final, and no invoice that was approved is either.
    have hs : o'.status = .failed ∨ o'.status = .rejected := by simpa [excludedFromDuplicateCheck] using hex
    obtain rfl := hon'.settled (by rcases hs with hs | hs <;> rw [hs] <;> rfl)
    have happ := ((h.backed j _ hj).approved hauto').1
    rcases hs with hs | hs <;> rw [hs] at happ <;> simp at happ
  · -- What a matched invoice was extracted as is final too.
    obtain ⟨o₂, ho₂, hon⟩ := h.between h₁₂ hw₂ j o ho
    obtain rfl := Option.some.inj (ho'.symm.trans ho₂)
    obtain ⟨m, hm, -⟩ := hon.names hnames
    rw [← hon'.extractions (List.ne_nil_of_mem hm)] at hnone
    exact hsame hnone

/-- What makes two invoices duplicates of each other. -/
def Rivals (py : Py) (inv inv' : Invoice) : Prop :=
  ∃ vendorId number number', inv.vendorId = some vendorId ∧ inv'.vendorId = some vendorId ∧
    inv.number = some number ∧ inv'.number = some number' ∧ number ≠ "" ∧ number' ≠ "" ∧
    py.lower (py.strip number) = py.lower (py.strip number')

/-- The number of a rival is what the check looks for. -/
theorem sameNumber_ne_none {py : Py} {normalized number : String} (hn : inv.number = some number) (hne : number ≠ "")
    (hsame : py.lower (py.strip number) = normalized) : sameNumber py normalized inv.extractions ≠ none := by
  have hbind : ((latestSuccessfulExtraction inv.extractions).bind (·.resultJson)).bind (·.invoice.invoiceNumber) =
      some number := hn
  rw [sameNumber, hbind]
  simp [hne, hsame]

/-- **At most one of two rivals** is approved by the system. -/
theorem Recorded.not_both (h : Recorded env w) (hij : i ≠ j) (hi : w.now.invoice i = some inv)
    (hj : w.now.invoice j = some inv') (hr : Rivals env.py inv inv') (hauto : AutoApproved inv) :
    ¬ AutoApproved inv' := by
  intro hauto'
  obtain ⟨vendorId, number, number', hv, hv', hn, hn', hne, hne', hsame⟩ := hr
  obtain ⟨w₁, hw₁, ⟨o₁, ho₁, hnames₁⟩, hnot₁⟩ :=
    h.unseen hij hi hj hauto hauto' hv hn hne (sameNumber_ne_none hn' hne' hsame.symm)
  obtain ⟨w₂, hw₂, ⟨o₂, ho₂, hnames₂⟩, hnot₂⟩ :=
    h.unseen hij.symm hj hi hauto' hauto hv' hn' hne' (sameNumber_ne_none hn hne hsame)
  -- Whoever read later would have seen the match row that the other had published.
  rcases List.suffix_or_suffix_of_suffix hw₁ hw₂ with hle | hle
  · obtain ⟨o, ho, hon⟩ := h.between hle hw₂ i o₁ ho₁
    exact hnot₂ o ho (hon.names hnames₁)
  · obtain ⟨o, ho, hon⟩ := h.between hle hw₁ j o₂ ho₂
    exact hnot₁ o ho (hon.names hnames₂)

end recorded

/-! ## Runs -/

/-- The calls on one invoice run one after another; those on different
invoices may overlap. -/
def InTurn (s : Sessions) : Txn.Action CallOn → Prop
  | .advance t => ∀ f t' f', s.flights t = some f → f.first = none → t' ≠ t → s.flights t' = some f' →
      f'.op.invoiceId = f.op.invoiceId → f'.first = none ∨ f'.session.prog.isDone = true
  | _ => True

/-- Each call keeps the record while the others leave its invoice alone. -/
def recordDiscipline (env : Env) : Txn.Discipline (CallOn.prog env) Uuid where
  owner := CallOn.invoiceId
  guard := CallOn.Takes
  Inv := Recorded env
  Free _ _ := True
  R := Undisturbed
  G i w w' := ∃ c a₀, Act env (Undisturbed i) c a₀ i w w'
  refl := .refl
  trans := .trans
  inv_guar h hG := by
    obtain ⟨c, a₀, hact⟩ := hG
    exact h.act hact
  rely_guar _ hij hG := by
    obtain ⟨c, a₀, hact⟩ := hG
    exact hact.undisturbed hij
  inv_noop h := h.noop
  rely_noop := .noop
  free_rely _ _ := trivial
  spec op := by
    obtain ⟨k, hk, hidle⟩ := op.call.guarded env op.invoiceId
    refine ⟨k, hk, fun w _ => ⟨fun _ _ => op.wp hk (fun _ _ h => ⟨_, _, h⟩) (fun _ _ => trivial) fun _ _ _ => trivial,
      fun hg => hidle _ _ fun inv hinv => ?_⟩⟩
    by_contra hentry
    exact hg ⟨inv, hinv, by simpa using hentry⟩

section runs
variable {env : Env} {s s' : Sessions}

theorem InTurn.exclusive {a : Txn.Action CallOn} (h : InTurn s a) : (recordDiscipline env).Exclusive s a := by
  cases a with
  | begin t op => trivial
  | advance t =>
    rintro f hf hfirst - t' f' hne hf' ho ⟨hlive, d, hd, -⟩
    rcases h f t' f' hf hfirst hne hf' ho with hnone | hdone
    · rw [hd] at hnone
      cases hnone
    · rw [hlive] at hdone
      cases hdone
  | abort t => exact fun _ _ _ => trivial

theorem recorded_of_run {w : World} (hw : Fresh w) (hr : Txn.Sys.Runs (CallOn.prog env) InTurn (.idle w) s) :
    Recorded env s.world := by
  have hok : (recordDiscipline env).SysOk (.idle w) :=
    (recordDiscipline env).sysOk_idle hw.recorded fun _ => trivial
  exact (hok.runs (hr.mono fun _ _ h => h.exclusive)).inv

/-- The invoice was in the status at some time. -/
def Ever (w : World) (i : Uuid) (status : InvoiceStatus) : Prop :=
  ∃ d ∈ w.stores, ∃ inv, d.invoice i = some inv ∧ inv.status = status

theorem Recorded.autoApproved_of_ever {w : World} (h : Recorded env w) {i : Uuid} {inv : Invoice}
    (hi : w.now.invoice i = some inv) (he : Ever w i .autoApproved) : AutoApproved inv := by
  obtain ⟨d, hd, o, ho, hs⟩ := he
  obtain ⟨a, ha, hto⟩ := (h.trails d hd i o ho).autoApproved hs
  have hon : ∃ inv', w.now.invoice i = some inv' ∧ o.Onward inv' := by
    rcases List.mem_cons.mp hd with rfl | hd
    · exact ⟨o, ho, .refl o⟩
    · exact (List.pairwise_cons.mp h.onward).1 d hd i o ho
  obtain ⟨inv', hi', hon⟩ := hon
  obtain rfl := Option.some.inj (hi.symm.trans hi')
  exact ⟨a, hon.auditLog.subset ha, hto⟩

/-- **Duplicates exclude each other**, whatever the calls on different
invoices interleave: of two invoices with one vendor and one number at most
one is ever AUTO_APPROVED. -/
theorem one_of_rivals {w : World} (hw : Fresh w) (hr : Txn.Sys.Runs (CallOn.prog env) InTurn (.idle w) s)
    {i j : Uuid} {inv inv' : Invoice} (hij : i ≠ j) (hi : s.world.now.invoice i = some inv)
    (hj : s.world.now.invoice j = some inv') (hrivals : Rivals env.py inv inv') :
    ¬ (Ever s.world i .autoApproved ∧ Ever s.world j .autoApproved) := by
  rintro ⟨he, he'⟩
  have h := recorded_of_run hw hr
  exact h.not_both hij hi hj hrivals (h.autoApproved_of_ever hi he) (h.autoApproved_of_ever hj he')

end runs

namespace Sample

/-- Two documents with one answer, worked on at the same time: the second
publishes its match row while the first is being validated, and its own
validation is under way when the first is approved. -/
def rivals : List (Txn.Action CallOn) :=
  [.begin 0 ⟨uuid 5, .extract (provider plain)⟩, .begin 1 ⟨uuid 6, .extract (provider plain)⟩, .advance 0, .advance 1] ++
    advances 0 8 ++ advances 1 8 ++ [.begin 2 ⟨uuid 5, .matchVendor⟩] ++ advances 2 11 ++
    [.begin 3 ⟨uuid 5, .validate⟩, .begin 4 ⟨uuid 6, .matchVendor⟩] ++ advances 4 5 ++ advances 3 6 ++ advances 4 6 ++
    advances 3 4 ++ [.begin 5 ⟨uuid 5, .approve⟩, .begin 6 ⟨uuid 6, .validate⟩] ++ advances 6 5 ++ advances 5 8 ++
    advances 6 7 ++ [.begin 7 ⟨uuid 6, .approve⟩] ++ advances 7 7

/-- What `InTurn` asks of the session that acts and another one. -/
def Behind (f f' : Txn.Flight CallOn DB Disk Message Exn) : Prop :=
  f.first = none → f'.op.invoiceId = f.op.invoiceId → f'.first = none ∨ f'.session.prog.isDone = true

instance (f f' : Txn.Flight CallOn DB Disk Message Exn) : Decidable (Behind f f') :=
  inferInstanceAs (Decidable (f.first = none → f'.op.invoiceId = f.op.invoiceId → f'.first = none ∨ _))

/-- Where the two invoices end, and where the second was at each commit. -/
theorem rivals_rows :
    (Txn.Sys.executeIf (CallOn.prog env) (Txn.Sys.Apart 8 fun _ => Behind) (.idle received) rivals).any (fun s =>
      ([5, 6].map fun n => (s.world.now.invoice (uuid n)).map fun inv => (inv.status, inv.vendorId, inv.number)) =
        [some (.autoApproved, some vendor.id, some "N-1"), some (.needsReview, some vendor.id, some "N-1")] ∧
      (s.world.stores.map fun d => (d.invoice (uuid 6)).map (·.status)) =
        [some .needsReview, some .validated, some .validating, some .validating, some .validating, some .extracted,
          some .extracted, some .received, some .received]) = true := by
  decide +kernel

theorem rivals_run : ∃ (s : Sessions) (inv inv' : Invoice),
    Txn.Sys.Runs (CallOn.prog env) InTurn (.idle received) s ∧ s.world.now.invoice (uuid 5) = some inv ∧
      s.world.now.invoice (uuid 6) = some inv' ∧ inv.status = .autoApproved ∧ inv'.status = .needsReview ∧
      Rivals env.py inv inv' ∧ Ever s.world (uuid 6) .validating := by
  obtain ⟨s, hex, hrows⟩ := (Option.any_eq_true _ _).mp rivals_rows
  simp only [List.map_cons, List.map_nil, List.cons.injEq, Option.map_eq_some_iff, Prod.mk.injEq, and_true,
    decide_eq_true_eq] at hrows
  obtain ⟨⟨⟨inv, hi, hs, hv, hn⟩, inv', hi', hs', hv', hn'⟩, hstores⟩ := hrows
  have hmem : some .validating ∈ s.world.stores.map fun d => (d.invoice (uuid 6)).map (·.status) := by
    rw [hstores]
    decide
  obtain ⟨d, hd, hstatus⟩ := List.mem_map.mp hmem
  refine ⟨s, inv, inv', ?_, hi, hi', hs, hs', ⟨_, _, _, hv, hv', hn, hn', by decide, by decide, rfl⟩,
    d, hd, Option.map_eq_some_iff.mp hstatus⟩
  refine (Txn.Sys.runs_of_executeIf rivals hex).of_apart (fun _ _ _ => trivial) ?_ fun _ _ => rfl
  exact fun s t h f t' f' hf hfirst hne hf' => h f t' f' hf hne hf' hfirst

end Sample

theorem one_of_sample : ∃ s : Sessions,
    Txn.Sys.Runs (CallOn.prog Sample.env) InTurn (.idle Sample.received) s ∧
      Ever s.world (Sample.uuid 5) .autoApproved ∧ ¬ Ever s.world (Sample.uuid 6) .autoApproved := by
  obtain ⟨s, inv, inv', hr, hi, hi', hs, -, hrivals, -⟩ := Sample.rivals_run
  have hever : Ever s.world (Sample.uuid 5) .autoApproved := ⟨_, List.mem_cons_self, inv, hi, hs⟩
  exact ⟨s, hr, hever, fun hever' =>
    one_of_rivals Sample.received_fresh hr (by decide) hi hi' hrivals ⟨hever, hever'⟩⟩

end InvoiceOps
