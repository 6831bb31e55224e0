import Sisfila.Calls.View

namespace Sisfila

namespace Mesa

variable {i : Nat} {x : Vista} {t : World} {v : Vaga}

/-! The statements of a call, one view after another. -/

private theorem yields_timeNow (h : Ve i x t) :
    ∃ t',Yields timeNow t (x.clock 0) t' ∧ Ve i x.tique t' :=
  ⟨_,⟨by rw [← h.clock]; rfl,rfl⟩,h.timeNow⟩

theorem yields_updateFila (h : Ve i x t) (hv : v.filaId=some i)
    (g : Estatisticas → Estatisticas) :
    ∃ t',Yields (grava (fun d => d.updateFila v.filaId g)) t () t' ∧ Ve i (x.grava g) t' := by
  rw [hv]
  exact ⟨_,⟨rfl,rfl⟩,h.updateFila g⟩

private theorem yields_updateVagas (h : Ve i x t) (p : VagaBase → Bool) (g : Chamada → Chamada) :
    ∃ t',Yields (grava (fun d => d.updateVagas p g)) t () t' ∧ Ve i (x.marca p g) t' :=
  ⟨_,⟨rfl,rfl⟩,h.updateVagas p g⟩

private theorem yields_leFila (h : Ve i x t) (hv : v.filaId=some i) :
    Yields (leFila v.filaId) t x.fila t := by
  simp [Yields,leFila,Prog.exec_bind,hv,h.fila]

private theorem yields_ultimaVaga (h : Ve i x t) (hv : v.filaId=some i) {u : Vaga}
    (hu : x.vagas.getLast?=some u) : Yields (ultimaVaga v.filaId) t u t := by
  simp [Yields,ultimaVaga,Prog.exec_bind,hv,h.vagas,hu]

private theorem yields_primeiraVaga (h : Ve i x t) (hv : v.filaId=some i) {u : Vaga}
    (hu : x.vagas.head?=some u) : Yields (primeiraVaga v.filaId) t u t := by
  simp [Yields,primeiraVaga,Prog.exec_bind,hv,h.vagas,hu]

private theorem yields_orRaise {α : Type} (e : Erro) (a : α) (t : World) :
    Yields (orRaise e (some a)) t a t := ⟨rfl,rfl⟩

private theorem yields_pure {α : Type} (a : α) (t : World) : Yields (pure a) t a t := ⟨rfl,rfl⟩

/-! The blocks of `associa_vaga_a_mesa`. -/

/-- After the first UPDATE. -/
def vistaMarcada (x : Vista) (v : Vaga) : Vista :=
  x.tique.marca (fun w => w.alunoId==v.alunoId && w.posicao==v.posicao)
    (fun c => { c with dataChamada := some (x.clock 0) })

theorem yields_marcaChamada (h : Ve i x t) :
    ∃ t',Yields (marcaChamada v) t () t' ∧ Ve i (vistaMarcada x v) t' := by
  obtain ⟨t₁,h₁,hv₁⟩ := yields_timeNow h
  obtain ⟨t₂,h₂,hv₂⟩ := yields_updateVagas hv₁ _ _
  exact ⟨t₂,h₁.bind h₂,hv₂⟩

/-- The last vaga is still the last, at its position. -/
theorem ultima_marcada (x : Vista) (v : Vaga) : (vistaMarcada x v).vagas.getLast?.map
    Vaga.toVagaBase=x.vagas.getLast?.map Vaga.toVagaBase := by
  rw [← List.getLast?_map,← List.getLast?_map]
  exact congrArg List.getLast? (x.tique.marca_map_base _ _)

/-- After the three counters. -/
def vistaContada (x : Vista) (p total : Int) : Vista :=
  ((x.grava (fun e => { e with npaguardando := some (total-p) })).grava
    (fun e => { e with npatendidas := some p })).grava (fun e => { e with nptotal := some total })

theorem yields_contaPessoas (h : Ve i x t) (hv : v.filaId=some i) {u : Vaga} {p total : Int}
    (hu : x.vagas.getLast?=some u) (ht : u.posicao=some total) (hp : v.posicao=some p) :
    ∃ t',Yields (contaPessoas v) t (p,some total) t' ∧ Ve i (vistaContada x p total) t' := by
  obtain ⟨t₁,h₁,hv₁⟩ := yields_updateFila h hv (fun e => { e with npaguardando := some (total-p) })
  obtain ⟨t₂,h₂,hv₂⟩ := yields_updateFila hv₁ hv (fun e => { e with npatendidas := some p })
  obtain ⟨t₃,h₃,hv₃⟩ := yields_updateFila hv₂ hv (fun e => { e with nptotal := some total })
  refine ⟨t₃,?_,hv₃⟩
  refine (yields_ultimaVaga h hv hu).bind ?_
  rw [ht,hp]
  refine (yields_orRaise _ total t).bind ((yields_orRaise _ p t).bind ?_)
  refine h₁.bind (h₂.bind ((yields_ultimaVaga hv₂ hv hu).bind ?_))
  rw [ht]
  exact h₃.bind (yields_pure _ _)

theorem contaPessoas_raises (h : Ve i x t) (hv : v.filaId=some i) {u : Vaga}
    (hu : x.vagas.getLast?=some u) (ht : u.posicao=none) :
    ((contaPessoas v).exec t).ok=false := by
  unfold contaPessoas
  rw [(yields_ultimaVaga h hv hu).ok_bind,ht]
  rfl

/-- After `temponafila`. -/
def vistaMedida (x : Vista) (v : Vaga) : Vista :=
  x.tique.marca (fun w => w.id==v.id)
    (fun c => { c with temponafila := some (truncate (x.clock 0-v.createdAt)) })

theorem yields_registraTempoNaFila (h : Ve i x t) :
    ∃ t',Yields (registraTempoNaFila v) t () t' ∧ Ve i (vistaMedida x v) t' := by
  obtain ⟨t₁,h₁,hv₁⟩ := yields_timeNow h
  obtain ⟨t₂,h₂,hv₂⟩ := yields_updateVagas hv₁ _ _
  exact ⟨t₂,h₁.bind h₂,hv₂⟩

def vistaAberta (x : Vista) (p : Int) (nptt : Option Int) : Vista :=
  if p=1 ∧ some p≠nptt then
    (x.grava (fun e => { e with realizarcalculo := some true })).tique.grava
      (fun e => { e with tiatendimento := some (x.clock 0) })
  else x

theorem yields_abreMedicao (h : Ve i x t) (hv : v.filaId=some i) (p : Int) (nptt : Option Int) :
    ∃ t',Yields (abreMedicao v p nptt) t () t' ∧ Ve i (vistaAberta x p nptt) t' := by
  unfold abreMedicao vistaAberta
  split_ifs
  · obtain ⟨t₁,h₁,hv₁⟩ := yields_updateFila h hv (fun e => { e with realizarcalculo := some true })
    obtain ⟨t₂,h₂,hv₂⟩ := yields_timeNow hv₁
    obtain ⟨t₃,h₃,hv₃⟩ := yields_updateFila hv₂ hv
      (fun e => { e with tiatendimento := some (x.clock 0) })
    exact ⟨t₃,h₁.bind (h₂.bind h₃),hv₃⟩
  · exact ⟨t,yields_pure _ _,h⟩

/-- The third call and later ones measure, except the last, while the latch is set. -/
def Mede (e : Estatisticas) (p : Int) (nptt : Option Int) : Prop :=
  2<p ∧ some p≠nptt ∧ e.realizarcalculo=some true

instance (e : Estatisticas) (p : Int) (nptt : Option Int) : Decidable (Mede e p nptt) := by
  unfold Mede
  infer_instance

/-- What the measurement subtracts. -/
def Mensuravel (x : Vista) : Prop :=
  x.fila.tiatendimento≠none ∧ (x.valida=true ∨ x.fila.tfatendimento≠none)

theorem mede_of_not (h : Ve i x t) (hv : v.filaId=some i) {p : Int} {nptt : Option Int}
    (hm : ¬Mede x.fila.toEstatisticas p nptt) : Yields (mede v p nptt) t () t := by
  unfold mede
  split_ifs with hc
  · have hl : ¬x.fila.realizarcalculo=some true := fun hl => hm ⟨hc.1,hc.2,hl⟩
    refine (yields_leFila h hv).bind ?_
    rw [if_neg hl]
    exact yields_pure _ _
  · exact yields_pure _ _

private theorem tfatendimento_grava (x : Vista) (q : ℚ) :
    (x.tique.grava (fun e => { e with tfatendimento := some q })).fila.tfatendimento=
      if x.valida then some q else x.fila.tfatendimento := by
  have he := x.tique.grava_estatisticas (fun e => { e with tfatendimento := some q })
  rw [he,Vista.tique_valida]
  split_ifs <;> rfl

private theorem tiatendimento_grava (x : Vista) (q : ℚ) :
    (x.tique.grava (fun e => { e with tfatendimento := some q })).fila.tiatendimento=
      x.fila.tiatendimento := by
  have he := x.tique.grava_estatisticas (fun e => { e with tfatendimento := some q })
  rw [he]
  split_ifs <;> rfl

/-- After the measurement. -/
def vistaMedicao (x : Vista) (p : Int) (tf ti : ℚ) : Vista :=
  (x.tique.grava (fun e => { e with tfatendimento := some (x.clock 0) })).grava
    (fun e => { e with
      tempoatendimento := some (Dbl.div (.num (tf-ti)) (.num ((p-1 : Int) : ℚ))) })

theorem yields_calculaAtendimento (h : Ve i x t) (hv : v.filaId=some i) (p : Int) {tf ti : ℚ}
    (hti : x.fila.tiatendimento=some ti)
    (htf : (if x.valida then some (x.clock 0) else x.fila.tfatendimento)=some tf) :
    ∃ t',Yields (calculaAtendimento v p) t () t' ∧ Ve i (vistaMedicao x p tf ti) t' := by
  obtain ⟨t₁,h₁,hv₁⟩ := yields_timeNow h
  obtain ⟨t₂,h₂,hv₂⟩ := yields_updateFila hv₁ hv
    (fun e => { e with tfatendimento := some (x.clock 0) })
  have htf₂ := (tfatendimento_grava x (x.clock 0)).trans htf
  have hti₂ := (tiatendimento_grava x (x.clock 0)).trans hti
  obtain ⟨t₃,h₃,hv₃⟩ := yields_updateFila hv₂ hv (fun e => { e with
    tempoatendimento := some (Dbl.div (.num (tf-ti)) (.num ((p-1 : Int) : ℚ))) })
  refine ⟨t₃,?_,hv₃⟩
  refine h₁.bind (h₂.bind ((yields_leFila hv₂ hv).bind ?_))
  rw [htf₂]
  refine (yields_orRaise _ tf t₂).bind ((yields_leFila hv₂ hv).bind ?_)
  rw [hti₂]
  exact (yields_orRaise _ ti t₂).bind h₃

theorem calculaAtendimento_raises (h : Ve i x t) (hv : v.filaId=some i) (p : Int)
    (hm : ¬Mensuravel x) : ((calculaAtendimento v p).exec t).ok=false := by
  obtain ⟨t₁,h₁,hv₁⟩ := yields_timeNow h
  obtain ⟨t₂,h₂,hv₂⟩ := yields_updateFila hv₁ hv
    (fun e => { e with tfatendimento := some (x.clock 0) })
  have hx := tfatendimento_grava x (x.clock 0)
  unfold calculaAtendimento
  rw [h₁.ok_bind,h₂.ok_bind,(yields_leFila hv₂ hv).ok_bind]
  cases htf : (x.tique.grava
      (fun e => { e with tfatendimento := some (x.clock 0) })).fila.tfatendimento with
  | none => rfl
  | some tf =>
    rw [(yields_orRaise _ tf t₂).ok_bind,(yields_leFila hv₂ hv).ok_bind,tiatendimento_grava]
    have hti : x.fila.tiatendimento=none := by
      by_contra hti
      apply hm
      refine ⟨hti,?_⟩
      rw [htf] at hx
      by_cases hval : x.valida=true
      · exact Or.inl hval
      · rw [if_neg hval] at hx
        exact Or.inr (by simp [← hx])
    rw [hti]
    rfl

theorem yields_mede_of (h : Ve i x t) (hv : v.filaId=some i) {p : Int} {nptt : Option Int}
    (hc : Mede x.fila.toEstatisticas p nptt) {tf ti : ℚ} (hti : x.fila.tiatendimento=some ti)
    (htf : (if x.valida then some (x.clock 0) else x.fila.tfatendimento)=some tf) :
    ∃ t',Yields (mede v p nptt) t () t' ∧ Ve i (vistaMedicao x p tf ti) t' := by
  obtain ⟨t',hy,hv'⟩ := yields_calculaAtendimento h hv p hti htf
  refine ⟨t',?_,hv'⟩
  unfold mede
  rw [if_pos ⟨hc.1,hc.2.1⟩]
  refine (yields_leFila h hv).bind ?_
  rw [if_pos hc.2.2]
  exact hy

/-- What `mede` leaves when it completes: it sets `tempoatendimento`, if the fila passes its
validation. -/
theorem yields_mede (h : Ve i x t) (hv : v.filaId=some i) {p : Int} {nptt : Option Int}
    (hm : Mede x.fila.toEstatisticas p nptt → Mensuravel x) :
    ∃ t' x',Yields (mede v p nptt) t () t' ∧ Ve i x' t' ∧ x'.vagas=x.vagas ∧
      x'.vagaValida=x.vagaValida ∧ (x'.fila.tempoatendimento=none ↔
        x.fila.tempoatendimento=none ∧ ¬(Mede x.fila.toEstatisticas p nptt ∧ x.valida=true)) := by
  by_cases hc : Mede x.fila.toEstatisticas p nptt
  · obtain ⟨hti,htf⟩ := hm hc
    obtain ⟨ti,hti⟩ := Option.ne_none_iff_exists'.mp hti
    obtain ⟨tf,htf⟩ : ∃ tf,
        (if x.valida then some (x.clock 0) else x.fila.tfatendimento)=some tf := by
      split_ifs with hval
      · exact ⟨_,rfl⟩
      · exact Option.ne_none_iff_exists'.mp (htf.resolve_left hval)
    obtain ⟨t',hy,hv'⟩ := yields_mede_of h hv hc hti htf
    refine ⟨t',_,hy,hv',rfl,rfl,?_⟩
    rw [vistaMedicao,Vista.grava_estatisticas,Vista.grava_estatisticas]
    cases hval : x.valida <;> simp [hval,hc]
  · exact ⟨t,x,mede_of_not h hv hc,h,rfl,rfl,by simp [hc]⟩

theorem mede_raises (h : Ve i x t) (hv : v.filaId=some i) {p : Int} {nptt : Option Int}
    (hc : Mede x.fila.toEstatisticas p nptt) (hm : ¬Mensuravel x) :
    ((mede v p nptt).exec t).ok=false := by
  unfold mede
  rw [if_pos ⟨hc.1,hc.2.1⟩,(yields_leFila h hv).ok_bind,if_pos hc.2.2]
  exact calculaAtendimento_raises h hv p hm

private theorem tempoatendimento_grava (x : Vista) (g : Estatisticas → Estatisticas)
    (hg : ∀ e,(g e).tempoatendimento=e.tempoatendimento) :
    (x.grava g).fila.tempoatendimento=x.fila.tempoatendimento := by
  rw [Vista.grava_estatisticas]
  split_ifs
  · exact hg _
  · rfl

theorem yields_fechaMedicao (h : Ve i x t) (hv : v.filaId=some i) (p : Int) (nptt : Option Int) :
    ∃ t' x',Yields (fechaMedicao v p nptt) t () t' ∧ Ve i x' t' ∧ x'.vagas=x.vagas ∧
      x'.fila.tempoatendimento=x.fila.tempoatendimento := by
  unfold fechaMedicao
  split_ifs
  · obtain ⟨t',h',hv'⟩ := yields_updateFila h hv (fun e => { e with realizarcalculo := some false })
    exact ⟨t',_,h',hv',rfl,tempoatendimento_grava _ _ (fun _ => rfl)⟩
  · exact ⟨t,x,yields_pure _ _,h,rfl,rfl⟩

theorem yields_calculaLambda (h : Ve i x t) (hv : v.filaId=some i) (total : Int)
    (hx : x.vagas≠[]) : ∃ t' x',Yields (calculaLambda v (some total)) t () t' ∧ Ve i x' t' ∧
      x'.vagas=x.vagas ∧ x'.fila.tempoatendimento=x.fila.tempoatendimento := by
  have hu := List.getLast?_eq_some_getLast hx
  have hw := List.head?_eq_some_head hx
  obtain ⟨t',h',hv'⟩ := yields_updateFila h hv (fun e => { e with
    lambda := some (Dbl.div (.num 3600)
      (Dbl.div (.num ((x.vagas.getLast hx).createdAt-(x.vagas.head hx).createdAt))
        (.num (total : ℚ)))) })
  refine ⟨t',_,?_,hv',rfl,tempoatendimento_grava _ _ (fun _ => rfl)⟩
  exact (yields_ultimaVaga h hv hu).bind ((yields_primeiraVaga h hv hw).bind
    ((yields_orRaise _ total t).bind h'))

theorem yields_calculaMi (h : Ve i x t) (hv : v.filaId=some i)
    (hx : x.fila.tempoatendimento≠none) : ∃ t' x',Yields (calculaMi v) t () t' ∧ Ve i x' t' ∧
      x'.vagas=x.vagas := by
  obtain ⟨q,hq⟩ := Option.ne_none_iff_exists'.mp hx
  obtain ⟨t',h',hv'⟩ := yields_updateFila h hv (fun e => { e with
    mi := some (Dbl.div (.num 3600) q) })
  refine ⟨t',_,?_,hv',rfl⟩
  refine (yields_leFila h hv).bind ?_
  rw [hq]
  exact (yields_orRaise _ q t).bind h'

theorem calculaMi_raises (h : Ve i x t) (hv : v.filaId=some i)
    (hx : x.fila.tempoatendimento=none) : ((calculaMi v).exec t).ok=false := by
  unfold calculaMi
  rw [(yields_leFila h hv).ok_bind,hx]
  rfl

/-- The accumulator loop stays inside the list, meets no nil and adds up. -/
theorem yields_somaTempos {todas : List Vaga} {ts : List Int}
    (h : todas.map (fun w => w.temponafila)=ts.map some) (t : World) :
    Yields (somaTempos todas todas.length) t ts.sum t := by
  have hlen : todas.length=ts.length := by simpa using congrArg List.length h
  have hg : ∀ (as : List Nat) (soma : Int),(∀ a ∈ as,a<ts.length) →
      Yields (as.foldlM (fun aux a => do
        let v ← orRaise Erro.noMethodError todas[a]?
        let t ← orRaise Erro.typeError v.temponafila
        (pure (aux+t) : Req Int)) soma) t (soma+(as.map (fun a => ts[a]?.getD 0)).sum) t := by
    intro as
    induction as with
    | nil =>
      intro soma _
      simpa using yields_pure soma t
    | cons a as ih =>
      intro soma ha
      have hlt : a<ts.length := ha a List.mem_cons_self
      have hget := congrArg (fun l => l[a]?) h
      simp only [List.getElem?_map,List.getElem?_eq_getElem hlt,Option.map_some] at hget
      obtain ⟨w,hw,hq⟩ := Option.map_eq_some_iff.mp hget
      have hs := ih (soma+ts[a]) (fun b hb => ha b (List.mem_cons_of_mem a hb))
      rw [List.map_cons,List.sum_cons,List.getElem?_eq_getElem hlt,Option.getD_some,
        ← Int.add_assoc,List.foldlM_cons,hw]
      refine Yields.bind ((yields_orRaise _ _ t).bind ?_) hs
      rw [hq]
      exact (yields_orRaise _ ts[a] t).bind (yields_pure _ _)
  have hts : (List.range ts.length).map (fun a => ts[a]?.getD 0)=ts := by
    apply List.ext_getElem
    · simp
    · intro a h₁ h₂
      simp [List.getElem?_eq_getElem h₂]
  have hsum := hg (List.range ts.length) 0 (fun a ha => List.mem_range.mp ha)
  rw [hts,Int.zero_add] at hsum
  rw [hlen]
  exact hsum

/-- The vagas that waited, as the view has them, with their times. -/
theorem esperaram_map (h : Ve i x t) (hv : v.filaId=some i) :
    (esperaram v.filaId t.db).map (fun w => w.temponafila)=
      ((x.vagas.filterMap (fun w => w.temponafila)).filter (fun q => decide (0<q))).map some := by
  rw [esperaram,hv,h.vagas]
  induction x.vagas with
  | nil => rfl
  | cons w ws ih =>
    cases hw : w.temponafila with
    | none => simpa [List.filter_cons,hw] using ih
    | some q =>
      by_cases hq : 0<q
      · simpa [List.filter_cons,hw,hq] using ih
      · simpa [List.filter_cons,hw,hq] using ih

/-- The mean needs somebody who waited. -/
theorem ok_calculaTempoMedio (h : Ve i x t) (hv : v.filaId=some i) :
    ((calculaTempoMedio v).exec t).ok=true ↔ ∃ w ∈ x.vagas,∃ q ∈ w.temponafila,0<q := by
  have he : esperaram v.filaId t.db=
      x.vagas.filter (fun v => decide (∃ q ∈ v.temponafila,0<q)) := by
    rw [esperaram,hv,h.vagas]
  have hs := yields_somaTempos (esperaram_map h hv) t
  have hc : ∀ {α : Type} (q : Db → α),Yields (consulta q) t (q t.db) t := fun _ => ⟨rfl,rfl⟩
  unfold calculaTempoMedio
  rw [(hc _).ok_bind,(hc _).ok_bind,hs.ok_bind,(hc _).ok_bind,he]
  by_cases hn : (x.vagas.filter (fun v => decide (∃ q ∈ v.temponafila,0<q))).length=0
  · rw [if_pos hn]
    have hnil := List.eq_nil_of_length_eq_zero hn
    rw [List.filter_eq_nil_iff] at hnil
    simp only [Prog.exec_raise,Outcome.ok_error,Bool.false_eq_true,false_iff]
    intro hex
    obtain ⟨w,hw,hq⟩ := hex
    exact hnil w hw (decide_eq_true hq)
  · rw [if_neg hn]
    simp only [exec_grava,Outcome.ok_mk,true_iff]
    obtain ⟨w,hw⟩ := List.exists_mem_of_length_pos (Nat.pos_of_ne_zero hn)
    obtain ⟨hwm,hwq⟩ := List.mem_filter.mp hw
    exact ⟨w,hwm,of_decide_eq_true hwq⟩

/-- What the statistics of a call need so as not to raise: the last vaga has a position; where the
attendance time is measured its two dates are there; it was measured before or is now; and some
vaga of the fila has waited a whole second, the called one by the clock of the call. -/
def Chamavel (x : Vista) (v : Vaga) (p : Int) : Prop :=
  ∃ total,x.vagas.getLast?.bind (fun u => u.posicao)=some total ∧
    (Mede x.fila.toEstatisticas p (some total) → Mensuravel x) ∧
    (x.fila.tempoatendimento≠none ∨
      Mede x.fila.toEstatisticas p (some total) ∧ x.valida=true) ∧
    ∃ w ∈ x.vagas,if w.id=v.id ∧ x.vagaValida w.toVagaBase=true
      then 0<truncate (x.clock 1-v.createdAt) else ∃ q ∈ w.temponafila,0<q

/-! The view once the call is entered but nothing is measured yet. -/

def vistaEntrada (x : Vista) (v : Vaga) (p total : Int) : Vista :=
  vistaMedida (vistaContada (vistaMarcada x v) p total) v

/-- Of the statistics only the counters have changed. -/
theorem estatisticas_entrada (x : Vista) (v : Vaga) (p total : Int) :
    (vistaEntrada x v p total).fila.toEstatisticas=
      if x.valida then { x.fila.toEstatisticas with
        npaguardando := some (total-p), npatendidas := some p, nptotal := some total }
      else x.fila.toEstatisticas := by
  have he : (vistaEntrada x v p total).fila.toEstatisticas=
      (vistaContada (vistaMarcada x v) p total).fila.toEstatisticas := rfl
  have hv : (vistaMarcada x v).valida=x.valida := rfl
  rw [he]
  simp only [vistaContada,Vista.grava_estatisticas,Vista.grava_valida]
  rw [hv]
  split_ifs <;> rfl

/-- Every column but the counters is as it was. -/
theorem coluna_entrada {x : Vista} {v : Vaga} {p total : Int} {β : Type} (π : Estatisticas → β)
    (hπ : ∀ e a b c,π { e with npaguardando := a, npatendidas := b, nptotal := c }=π e) :
    π (vistaEntrada x v p total).fila.toEstatisticas=π x.fila.toEstatisticas := by
  rw [estatisticas_entrada]
  split_ifs
  · exact hπ _ _ _ _
  · rfl

/-- Two updates on, the waiting time of the called vaga is the new one. -/
theorem tempos_entrada (x : Vista) (v : Vaga) (p total : Int) :
    (vistaEntrada x v p total).vagas.map (fun w => (w.toVagaBase,w.temponafila))=
      x.vagas.map (fun w => (w.toVagaBase,if w.id=v.id ∧ x.vagaValida w.toVagaBase=true
        then some (truncate (x.clock 1-v.createdAt)) else w.temponafila)) := by
  have hmarca : ∀ (y : Vista) (c : VagaBase → Bool) (g : Chamada → Chamada),
      (y.marca c g).vagas=y.vagas.map (fun w => if c w.toVagaBase && y.vagaValida w.toVagaBase
        then { w with toChamada := g w.toChamada } else w) := fun _ _ _ => rfl
  have hvv : (vistaContada (vistaMarcada x v) p total).tique.vagaValida=x.vagaValida := rfl
  have hc : (vistaContada (vistaMarcada x v) p total).clock 0=x.clock 1 := rfl
  have hvs : (vistaContada (vistaMarcada x v) p total).tique.vagas=(vistaMarcada x v).vagas := rfl
  rw [vistaEntrada,vistaMedida,hmarca,hvs,hvv,hc,vistaMarcada,hmarca,List.map_map,List.map_map]
  apply List.map_congr_left
  intro w _
  simp only [Function.comp_apply]
  generalize (w.alunoId==v.alunoId && w.posicao==v.posicao &&
    x.tique.vagaValida w.toVagaBase)=c
  by_cases hw : w.id=v.id ∧ x.vagaValida w.toVagaBase=true
  · cases c <;> simp [hw]
  · have hb : (w.id==v.id && x.vagaValida w.toVagaBase)=false := by simpa using hw
    cases c <;> simp [hw,hb]

private theorem esperou_entrada (x : Vista) (v : Vaga) (p total : Int) :
    (∃ w ∈ (vistaEntrada x v p total).vagas,∃ q ∈ w.temponafila,0<q) ↔
      ∃ w ∈ x.vagas,if w.id=v.id ∧ x.vagaValida w.toVagaBase=true
        then 0<truncate (x.clock 1-v.createdAt) else ∃ q ∈ w.temponafila,0<q := by
  have h := congrArg (fun l => ∃ z ∈ l,∃ q ∈ z.2,0<q) (tempos_entrada x v p total)
  simp only [List.mem_map,exists_exists_and_eq_and] at h
  rw [h]
  refine exists_congr (fun w => and_congr_right (fun _ => ?_))
  split_ifs <;> simp

theorem vagas_entrada (x : Vista) (v : Vaga) (p total : Int) :
    (vistaEntrada x v p total).vagas.map Vaga.toVagaBase=x.vagas.map Vaga.toVagaBase := by
  have h := congrArg (List.map Prod.fst) (tempos_entrada x v p total)
  simpa [List.map_map,Function.comp_def] using h

/-- From the measurement to the mean. -/
private theorem ok_medicao (h : Ve i x t) (hv : v.filaId=some i) (hx : x.vagas≠[])
    (p total : Int) : ((mede v p (some total) >>= fun _ => fechaMedicao v p (some total) >>=
        fun _ => calculaLambda v (some total) >>= fun _ => calculaMi v >>=
        fun _ => calculaTempoMedio v).exec t).ok=true ↔
      (Mede x.fila.toEstatisticas p (some total) → Mensuravel x) ∧
      (x.fila.tempoatendimento≠none ∨
        Mede x.fila.toEstatisticas p (some total) ∧ x.valida=true) ∧
      ∃ w ∈ x.vagas,∃ q ∈ w.temponafila,0<q := by
  by_cases hM : Mede x.fila.toEstatisticas p (some total) → Mensuravel x
  · obtain ⟨t₅,x₅,h₅,hv₅,hvs₅,-,hta₅⟩ := yields_mede h hv hM
    obtain ⟨t₆,x₆,h₆,hv₆,hvs₆,hta₆⟩ := yields_fechaMedicao hv₅ hv p (some total)
    have hne₆ : x₆.vagas≠[] := by rw [hvs₆,hvs₅]; exact hx
    obtain ⟨t₇,x₇,h₇,hv₇,hvs₇,hta₇⟩ := yields_calculaLambda hv₆ hv total hne₆
    rw [h₅.ok_bind,h₆.ok_bind,h₇.ok_bind]
    by_cases hT : x₇.fila.tempoatendimento=none
    · rw [ok_bind_false (calculaMi_raises hv₇ hv hT)]
      rw [hta₇,hta₆,hta₅] at hT
      simp only [Bool.false_eq_true,false_iff]
      intro hcon
      obtain ⟨-,hta | hm,-⟩ := hcon
      · exact hta hT.1
      · exact hT.2 hm
    · obtain ⟨t₈,x₈,h₈,hv₈,hvs₈⟩ := yields_calculaMi hv₇ hv hT
      rw [h₈.ok_bind,ok_calculaTempoMedio hv₈ hv,hvs₈,hvs₇,hvs₆,hvs₅]
      rw [hta₇,hta₆,hta₅] at hT
      have hT' : x.fila.tempoatendimento≠none ∨
          Mede x.fila.toEstatisticas p (some total) ∧ x.valida=true := by
        by_contra hn
        rw [not_or,not_not] at hn
        exact hT hn
      exact ⟨fun hw => ⟨hM,hT',hw⟩,fun hw => hw.2.2⟩
  · obtain ⟨hc,hn⟩ := Classical.not_imp.mp hM
    rw [ok_bind_false (mede_raises h hv hc hn)]
    simp only [Bool.false_eq_true,false_iff]
    exact fun hcon => hM hcon.1

/-- Opening the measurement does not decide whether the call completes. -/
private theorem chamavel_entrada (x : Vista) (v : Vaga) (p total : Int)
    (htotal : x.vagas.getLast?.bind (fun u => u.posicao)=some total) :
    Chamavel x v p ↔
      let y := vistaAberta (vistaEntrada x v p total) p (some total)
      (Mede y.fila.toEstatisticas p (some total) → Mensuravel y) ∧
      (y.fila.tempoatendimento≠none ∨ Mede y.fila.toEstatisticas p (some total) ∧ y.valida=true) ∧
      ∃ w ∈ y.vagas,∃ q ∈ w.temponafila,0<q := by
  have hkeep {β : Type} := @coluna_entrada x v p total β
  have hlatch := hkeep (fun e => e.realizarcalculo) (fun _ _ _ _ => rfl)
  have hti := hkeep (fun e => e.tiatendimento) (fun _ _ _ _ => rfl)
  have htf := hkeep (fun e => e.tfatendimento) (fun _ _ _ _ => rfl)
  have hta := hkeep (fun e => e.tempoatendimento) (fun _ _ _ _ => rfl)
  have hwait := esperou_entrada x v p total
  have hval : (vistaEntrada x v p total).valida=x.valida := rfl
  generalize vistaEntrada x v p total=x₃ at *
  have hmede : Mede (vistaAberta x₃ p (some total)).fila.toEstatisticas p (some total) ↔
      Mede x.fila.toEstatisticas p (some total) := by
    unfold Mede
    refine and_congr_right (fun h2 => and_congr_right (fun _ => ?_))
    rw [vistaAberta,if_neg (by omega),hlatch]
  have hmens : Mede x.fila.toEstatisticas p (some total) →
      (Mensuravel (vistaAberta x₃ p (some total)) ↔ Mensuravel x) := by
    intro hc
    have h2 := hc.1
    rw [vistaAberta,if_neg (by omega)]
    unfold Mensuravel
    rw [hti,htf,hval]
  have hta₄ : (vistaAberta x₃ p (some total)).fila.tempoatendimento=x.fila.tempoatendimento := by
    rw [← hta,vistaAberta]
    split_ifs
    · have h₁ := tempoatendimento_grava x₃ (fun e => { e with realizarcalculo := some true })
        (fun _ => rfl)
      have h₂ := tempoatendimento_grava
        (x₃.grava (fun e => { e with realizarcalculo := some true })).tique
        (fun e => { e with tiatendimento := some (x₃.clock 0) }) (fun _ => rfl)
      exact h₂.trans h₁
    · rfl
  have hvs₄ : (vistaAberta x₃ p (some total)).vagas=x₃.vagas := by
    rw [vistaAberta]
    split_ifs <;> rfl
  have hval₄ : (vistaAberta x₃ p (some total)).valida=x.valida := by
    rw [← hval,vistaAberta]
    split_ifs <;> rfl
  dsimp only
  rw [hmede,hta₄,hval₄,hvs₄,hwait,imp_congr_right hmens,Chamavel,htotal]
  simp

/-- Exactly when the statistics of a call complete. -/
theorem ok_registraChamada (h : Ve i x t) (hv : v.filaId=some i) (hm : x.vagas≠[]) {p : Int}
    (hp : v.posicao=some p) : ((registraChamada v).exec t).ok=true ↔ Chamavel x v p := by
  obtain ⟨t₁,h₁,hv₁⟩ := yields_marcaChamada (v := v) h
  unfold registraChamada
  rw [h₁.ok_bind]
  have hlast := ultima_marcada x v
  rw [List.getLast?_eq_some_getLast hm,Option.map_some] at hlast
  obtain ⟨u,hu,hub⟩ := Option.map_eq_some_iff.mp hlast
  have hpos : x.vagas.getLast?.bind (fun u => u.posicao)=u.posicao := by
    rw [List.getLast?_eq_some_getLast hm]
    exact (congrArg VagaBase.posicao hub).symm
  cases htotal : u.posicao with
  | none =>
    rw [ok_bind_false (contaPessoas_raises hv₁ hv hu htotal)]
    simp [Chamavel,hpos,htotal]
  | some total =>
    obtain ⟨t₂,h₂,hv₂⟩ := yields_contaPessoas hv₁ hv hu htotal hp
    obtain ⟨t₃,h₃,hv₃⟩ := yields_registraTempoNaFila (v := v) hv₂
    obtain ⟨t₄,h₄,hv₄⟩ := yields_abreMedicao hv₃ hv p (some total)
    rw [h₂.ok_bind]
    dsimp only
    rw [h₃.ok_bind,h₄.ok_bind,chamavel_entrada x v p total (hpos.trans htotal)]
    apply ok_medicao hv₄ hv
    intro hn
    have hvs := vagas_entrada x v p total
    have hn' : (vistaEntrada x v p total).vagas=[] := by
      rw [← hn,vistaAberta]
      split_ifs <;> rfl
    rw [hn',List.map_nil] at hvs
    exact hm (List.map_eq_nil_iff.mp hvs.symm)

end Mesa

end Sisfila
