import Mathlib.Data.Rat.Floor
import Sisfila.Calls.Blocks

namespace Sisfila

/-! The mean waiting time. -/

/-- An integer column keeps a positive time from one whole second on. -/
theorem truncate_pos_iff (q : ℚ) : 0<truncate q ↔ 1≤q := by
  have hden : (0 : Int)<q.den := by exact_mod_cast q.den_pos
  have hone : 1≤q ↔ (q.den : Int)≤q.num := by simp [Rat.le_iff]
  rw [hone,truncate]
  rcases lt_or_ge q.num 0 with hneg | hpos
  · have htd : Int.tdiv q.num q.den≤0 := by
      have hn := Int.tdiv_nonneg (a := -q.num) (b := q.den) (by omega) hden.le
      rw [Int.neg_tdiv] at hn
      omega
    omega
  · rw [Int.tdiv_eq_ediv_of_nonneg hpos]
    have hle := Int.le_ediv_iff_mul_le (a := 1) (b := q.num) hden
    omega

/-- `⌊sum / number⌋` -/
def media (ts : List Int) : ℚ := ((⌊(ts.sum : ℚ)/(ts.length : ℚ)⌋ : Int) : ℚ)

theorem media_eq_fdiv (ts : List Int) : media ts=((Int.fdiv ts.sum ts.length : Int) : ℚ) := by
  rw [media,Rat.floor_intCast_div_natCast,Int.fdiv_eq_ediv_of_nonneg _ (Int.natCast_nonneg _)]

/-- The waiting times of the fila of `v` that count once `v` is called at `agora`. -/
def Db.esperas (d : Db) (v : Vaga) (agora : ℚ) : List Int :=
  ((d.vagasDe v.filaId).filterMap (fun w =>
    if w.id=v.id ∧ d.vagaValida w.toVagaBase=true then some (truncate (agora-v.createdAt))
      else w.temponafila)).filter (fun q => decide (0<q))

/-- The wait of `v` counts at `agora`: a whole second since the enrolment or, where the vaga fails
its validation and is not written, a positive time from before. -/
def Db.Esperou (d : Db) (v : Vaga) (agora : ℚ) : Prop :=
  if d.vagaValida v.toVagaBase then 1≤agora-v.createdAt else ∃ q ∈ v.temponafila,0<q

namespace Mesa

/-- From the measurement to `mi`. -/
def medeAteMi (vaga : Vaga) (npat : Int) (nptt : Option Int) : Req Unit := do
  abreMedicao vaga npat nptt
  mede vaga npat nptt
  fechaMedicao vaga npat nptt
  calculaLambda vaga nptt
  calculaMi vaga

/-- `registraChamada` up to the waiting-time step. -/
def registraAteMi (vaga : Vaga) : Req Unit := do
  marcaChamada vaga
  let (npat,nptt) ← contaPessoas vaga
  registraTempoNaFila vaga
  medeAteMi vaga npat nptt

theorem associaVagaAMesa_eq (v : Vaga) (mesa : Option Nat) : associaVagaAMesa (some v) mesa=
    registraAteMi v >>= fun _ => calculaTempoMedio v >>= fun _ => ocupaMesa (some v) mesa := by
  simp [associaVagaAMesa,registra,registraChamada,registraAteMi,medeAteMi,bind_assoc]

/-- The mean is defined and exact: the call ends without a ZeroDivisionError, its own vaga counts,
and the fila holds the floor of the quotient over the vagas that waited. -/
structure MediaExata (o : Outcome Evento World Erro Unit) (v : Vaga) : Prop where
  completa : o.ok=true
  incluida : ∃ w ∈ esperaram v.filaId o.state.db,w.id=v.id
  exata : (o.state.db.filaDe v.filaId).bind (fun f => f.tempomedioespera)=
    some (.num (media ((esperaram v.filaId o.state.db).filterMap (fun w => w.temponafila))))

variable {i : Nat} {x : Vista} {t : World} {v : Vaga}

theorem conserva_medeAteMi (v : Vaga) (npat : Int) (nptt : Option Int) :
    (medeAteMi v npat nptt).Every (Conserva (fun e => e.tempomedioespera)) := by
  have hS := leve_conserva (fun e => e.tempomedioespera)
  refine (every_abreMedicao hS v _ _ (fun _ _ => rfl) (fun _ _ => rfl)).bind (fun _ => ?_)
  refine (every_mede hS v _ _ (fun _ _ => rfl) (fun _ _ => rfl)).bind (fun _ => ?_)
  refine (every_fechaMedicao hS v _ _ (fun _ _ => rfl)).bind (fun _ => ?_)
  exact (every_calculaLambda hS v _ (fun _ _ => rfl)).bind
    (fun _ => every_calculaMi hS v (fun _ _ => rfl))

/-- The waiting times the mean is taken over. -/
theorem filterMap_esperaram (h : Ve i x t) (hv : v.filaId=some i) :
    (esperaram v.filaId t.db).filterMap (fun w => w.temponafila)=
      (x.vagas.filterMap (fun w => w.temponafila)).filter (fun q => decide (0<q)) := by
  have hm := congrArg (List.filterMap (fun q => q)) (esperaram_map h hv)
  simpa [List.filterMap_map,Function.comp_def] using hm

theorem yields_calculaTempoMedio (h : Ve i x t) (hv : v.filaId=some i)
    (hok : ((calculaTempoMedio v).exec t).ok=true) :
    ∃ t',Yields (calculaTempoMedio v) t () t' ∧ Ve i (x.grava (fun e => { e with
      tempomedioespera := some (.num (media ((x.vagas.filterMap
        (fun w => w.temponafila)).filter (fun q => decide (0<q))))) })) t' := by
  have hlist := esperaram_map h hv
  have hs := yields_somaTempos hlist t
  have hc : ∀ {α : Type} (q : Db → α),Yields (consulta q) t (q t.db) t := fun _ => ⟨rfl,rfl⟩
  generalize (x.vagas.filterMap (fun w => w.temponafila)).filter (fun q => decide (0<q))=ts at *
  have hlen : (esperaram v.filaId t.db).length=ts.length := by
    simpa using congrArg List.length hlist
  unfold calculaTempoMedio at hok ⊢
  rw [(hc _).ok_bind,(hc _).ok_bind,hs.ok_bind,(hc _).ok_bind,hlen] at hok
  have hn : ts.length≠0 := by
    intro hn
    rw [if_pos hn] at hok
    exact absurd hok (by simp)
  refine ⟨_,(hc _).bind ((hc _).bind (hs.bind ((hc _).bind ?_))),h.updateFila _⟩
  rw [hlen,if_neg hn,media_eq_fdiv,hv]
  exact ⟨rfl,rfl⟩

/-- Where the mean comes out exact, by the state the waiting-time step starts from. -/
theorem mediaExata_iff (h : Ve i x t) (hv : v.filaId=some i) (mesa : Option Nat) :
    MediaExata ((calculaTempoMedio v >>= fun _ => ocupaMesa (some v) mesa).exec t) v ↔
      (∃ w ∈ x.vagas,w.id=v.id ∧ ∃ q ∈ w.temponafila,0<q) ∧
      (x.valida=true ∨ x.fila.tempomedioespera=some (.num (media ((x.vagas.filterMap
        (fun w => w.temponafila)).filter (fun q => decide (0<q)))))) := by
  cases hok : ((calculaTempoMedio v).exec t).ok with
  | false =>
    apply iff_of_false
    · intro hm
      have hc := hm.completa
      rw [ok_bind_false hok] at hc
      simp at hc
    · rintro ⟨⟨w,hw,-,hq⟩,-⟩
      have hyes := (ok_calculaTempoMedio h hv).mpr ⟨w,hw,hq⟩
      rw [hok] at hyes
      simp at hyes
  | true =>
    obtain ⟨t₁,h₁,hv₁⟩ := yields_calculaTempoMedio h hv hok
    obtain ⟨y,hy,hvs,-,-,hest⟩ := hv₁.conserva (conserva_ocupaMesa (fun e => e) (some v) mesa)
    rw [Vista.grava_vagas] at hvs
    have hst := h₁.state_bind (f := fun _ => ocupaMesa (some v) mesa)
    rw [← hst] at hy
    have hokb := h₁.ok_bind (f := fun _ => ocupaMesa (some v) mesa)
    rw [ok_ocupaMesa] at hokb
    have htimes := filterMap_esperaram hy hv
    have hmem : ∀ w,w ∈ esperaram v.filaId
        ((calculaTempoMedio v >>= fun _ => ocupaMesa (some v) mesa).exec t).state.db ↔
        w ∈ x.vagas ∧ ∃ q ∈ w.temponafila,0<q := by
      intro w
      rw [esperaram,hv,hy.vagas,hvs,List.mem_filter,decide_eq_true_iff]
    have hfila : (((calculaTempoMedio v >>= fun _ => ocupaMesa (some v) mesa).exec
        t).state.db.filaDe v.filaId).bind (fun f => f.tempomedioespera)=
          if x.valida then some (.num (media ((x.vagas.filterMap
            (fun w => w.temponafila)).filter (fun q => decide (0<q)))))
          else x.fila.tempomedioespera := by
      rw [hv,hy.fila,Option.bind_some]
      rw [hest,Vista.grava_estatisticas]
      split_ifs <;> rfl
    rw [hvs] at htimes
    constructor
    · intro hm
      obtain ⟨w,hw,hid⟩ := hm.incluida
      have hex := hm.exata
      rw [hfila,htimes] at hex
      refine ⟨⟨w,((hmem w).mp hw).1,hid,((hmem w).mp hw).2⟩,?_⟩
      by_cases hval : x.valida=true
      · exact Or.inl hval
      · rw [if_neg hval] at hex
        exact Or.inr hex
    · rintro ⟨⟨w,hw,hid,hq⟩,hval⟩
      refine ⟨hokb,⟨w,(hmem w).mpr ⟨hw,hq⟩,hid⟩,?_⟩
      rw [hfila,htimes]
      split_ifs with hc
      · rfl
      · exact hval.resolve_left hc

/-- `MediaExata` looks at how the request ends and what it leaves. -/
theorem mediaExata_congr {o o' : Outcome Evento World Erro Unit} (hok : o.ok=o'.ok)
    (hst : o.state=o'.state) : MediaExata o v ↔ MediaExata o' v := by
  constructor <;> intro h <;> refine ⟨?_,?_,?_⟩
  · exact hok ▸ h.completa
  · exact hst ▸ h.incluida
  · exact hst ▸ h.exata
  · exact hok ▸ h.completa
  · exact hst ▸ h.incluida
  · exact hst ▸ h.exata

/-- `registraChamada` before it first asks for the fila itself. -/
def registraAteLambda (vaga : Vaga) : Req Unit := do
  marcaChamada vaga
  let (npat,nptt) ← contaPessoas vaga
  registraTempoNaFila vaga
  abreMedicao vaga npat nptt
  mede vaga npat nptt
  fechaMedicao vaga npat nptt
  calculaLambda vaga nptt

theorem registraAteMi_eq (v : Vaga) :
    registraAteMi v=registraAteLambda v >>= fun _ => calculaMi v := by
  simp [registraAteLambda,registraAteMi,medeAteMi,bind_assoc]

/-- Without its fila a call does not get past `mi`. -/
theorem filaDe_of_registraAteMi {s : World} (hr : ((registraAteMi v).exec s).ok=true) :
    ∃ f,s.db.filaDe v.filaId=some f := by
  have hq : (registraAteLambda v).Every Quieto := by
    have hS := estatistico_quieto.toLeve
    have ht : ∀ {β : Type} (_ : β),True := fun _ => trivial
    have hup : ∀ (p : VagaBase → Bool) (g : ℚ → Chamada → Chamada),
        (timeNow >>= fun q => grava (fun d => d.updateVagas p (g q))).Every Quieto :=
      fun p g => every_timeNow.bind (fun q => every_grava (fun d => d.core_updateVagas p (g q)))
    refine (hup _ _).bind (fun _ => (every_contaPessoas hS v ht ht ht).bind (fun n => ?_))
    refine (hup _ _).bind (fun _ => (every_abreMedicao hS v _ _ ht ht).bind (fun _ => ?_))
    refine (every_mede hS v _ _ ht ht).bind (fun _ => (every_fechaMedicao hS v _ _ ht).bind
      (fun _ => ?_))
    exact every_calculaLambda hS v _ ht
  rw [registraAteMi_eq] at hr
  obtain ⟨a,t',hy,hmi⟩ := yields_of_ok_bind hr
  obtain ⟨f,t'',hf,-⟩ := yields_of_ok_bind hmi
  have hcore : t'.db.core=s.db.core := by
    rw [← hy.2]
    exact (quieto_exec hq s).2
  have hsome : (v.filaId.bind t'.db.core.filas.find).isSome=true := by
    have hres := hf.1
    cases hfind : t'.db.filaDe v.filaId with
    | none => simp [leFila,Prog.exec_bind,hfind] at hres
    | some g =>
      obtain ⟨j,hj,hg⟩ := Option.bind_eq_some_iff.mp hfind
      rw [hj,Option.bind_some,Db.findFila_core,hg]
      rfl
  rw [hcore] at hsome
  obtain ⟨b,hb⟩ := Option.isSome_iff_exists.mp hsome
  obtain ⟨j,hj,hg⟩ := Option.bind_eq_some_iff.mp hb
  rw [Db.findFila_core] at hg
  obtain ⟨f,hf,-⟩ := Option.map_eq_some_iff.mp hg
  exact ⟨f,by rw [hj]; exact hf⟩

theorem contaPessoas_raises_of_none (h : Ve i x t) (hv : v.filaId=some i) (hp : v.posicao=none) :
    ((contaPessoas v).exec t).ok=false := by
  unfold contaPessoas
  cases hl : x.vagas.getLast? with
  | none => simp [ultimaVaga,Prog.exec_bind,hv,h.vagas,hl,Outcome.ok,Outcome.andThen]
  | some u =>
    cases hu : u.posicao <;>
      simp [ultimaVaga,Prog.exec_bind,hv,h.vagas,hl,hu,hp,Outcome.ok,Outcome.andThen]

/-- The state the waiting-time step starts from. -/
theorem yields_registraAteMi (h : Ve i x t) (hv : v.filaId=some i) (hm : x.vagas≠[])
    (hr : ((registraAteMi v).exec t).ok=true) :
    ∃ p total t',∃ y : Vista,Yields (registraAteMi v) t () t' ∧ Ve i y t' ∧
      y.vagas=(vistaEntrada x v p total).vagas ∧ y.valida=x.valida ∧
      y.fila.tempomedioespera=x.fila.tempomedioespera := by
  obtain ⟨t₁,h₁,hv₁⟩ := yields_marcaChamada (v := v) h
  unfold registraAteMi at hr ⊢
  rw [h₁.ok_bind] at hr
  have hm₁ : (vistaMarcada x v).vagas≠[] := by
    intro hn
    have hlast := ultima_marcada x v
    rw [hn,List.getLast?_eq_some_getLast hm] at hlast
    simp at hlast
  have hu := List.getLast?_eq_some_getLast hm₁
  cases hp : v.posicao with
  | none => simp [ok_bind_false (contaPessoas_raises_of_none hv₁ hv hp)] at hr
  | some p =>
    cases htotal : ((vistaMarcada x v).vagas.getLast hm₁).posicao with
    | none => simp [ok_bind_false (contaPessoas_raises hv₁ hv hu htotal)] at hr
    | some total =>
      obtain ⟨t₂,h₂,hv₂⟩ := yields_contaPessoas hv₁ hv hu htotal hp
      obtain ⟨t₃,h₃,hv₃⟩ := yields_registraTempoNaFila (v := v) hv₂
      rw [h₂.ok_bind] at hr
      dsimp only at hr
      rw [h₃.ok_bind] at hr
      obtain ⟨a,ha⟩ := (Outcome.ok_iff _).mp hr
      have h₄ : Yields (medeAteMi v p (some total)) t₃ () _ := ⟨ha,rfl⟩
      obtain ⟨y,hy,hvs,hval,-,htm⟩ := hv₃.conserva (conserva_medeAteMi v p (some total))
      have hkeep := @coluna_entrada x v p total _ (fun e => e.tempomedioespera) (fun _ _ _ _ => rfl)
      exact ⟨p,total,_,y,h₁.bind (h₂.bind (h₃.bind h₄)),hy,hvs,hval,htm.trans hkeep⟩

/-- The waiting time the called vaga enters the mean with. -/
theorem esperou_iff {s : World} {f : Fila} (hf : v.filaId=some f.id) (hm : v ∈ s.db.vagas.rows)
    (p total : Int) :
    (∃ w ∈ (vistaEntrada (s.vista f) v p total).vagas,w.id=v.id ∧ ∃ q ∈ w.temponafila,0<q) ↔
      s.db.Esperou v (s.clock 1) := by
  have h := congrArg (fun l => ∃ z ∈ l,z.1.id=v.id ∧ ∃ q ∈ z.2,0<q)
    (tempos_entrada (s.vista f) v p total)
  simp only [List.mem_map,exists_exists_and_eq_and] at h
  rw [h]
  have hvm : v ∈ (s.vista f).vagas := List.mem_filter.mpr ⟨hm,by simp [hf]⟩
  have huniq : ∀ w ∈ (s.vista f).vagas,w.id=v.id → w=v := by
    intro w hw hid
    have hwf := (s.db.vagas.find_eq_some_iff v.id w).mpr ⟨List.mem_of_mem_filter hw,hid⟩
    have hvf := Table.find_of_mem hm
    exact Option.some.inj (hwf.symm.trans hvf)
  have hval : (s.vista f).vagaValida v.toVagaBase=s.db.vagaValida v.toVagaBase := rfl
  have hown : (∃ q ∈ (if v.id=v.id ∧ (s.vista f).vagaValida v.toVagaBase=true
      then some (truncate ((s.vista f).clock 1-v.createdAt)) else v.temponafila),0<q) ↔
      s.db.Esperou v (s.clock 1) := by
    have hc : (s.vista f).clock 1=s.clock 1 := rfl
    rw [hval,hc,Db.Esperou]
    by_cases hv : s.db.vagaValida v.toVagaBase=true
    · simp [hv,truncate_pos_iff]
    · simp [hv]
  rw [← hown]
  constructor
  · rintro ⟨w,hw,hid,hq⟩
    rw [huniq w hw hid] at hq
    exact hq
  · intro hq
    exact ⟨v,hvm,rfl,hq⟩

/-- The times the mean is taken over, by the state before the call. -/
theorem esperas_entrada {s : World} {f : Fila} (hf : v.filaId=some f.id) (p total : Int) :
    (((vistaEntrada (s.vista f) v p total).vagas.filterMap (fun w => w.temponafila)).filter
      (fun q => decide (0<q)))=s.db.esperas v (s.clock 1) := by
  have h := congrArg (List.filterMap Prod.snd) (tempos_entrada (s.vista f) v p total)
  simp only [List.filterMap_map,Function.comp_def] at h
  rw [h,Db.esperas,hf]
  rfl

end Mesa

/-- A call that gets as far as the waiting-time step leaves an exact mean exactly if the wait of its
own vaga counts, a whole second or more, and the fila is valid, so that the mean is stored, or holds
that mean already. -/
theorem associaVagaAMesa_mediaExata (v : Vaga) (mesa : Option Nat) (s : World)
    (hv : v ∈ s.db.vagas.rows) (hr : ((Mesa.registraAteMi v).exec s).ok=true) :
    ∃ f,s.db.filaDe v.filaId=some f ∧
      (Mesa.MediaExata ((Mesa.associaVagaAMesa (some v) mesa).exec s) v ↔
        s.db.Esperou v (s.clock 1) ∧ (s.db.filaValida f.toFilaBase=true ∨
          f.tempomedioespera=some (.num (media (s.db.esperas v (s.clock 1)))))) := by
  obtain ⟨f,hf⟩ := Mesa.filaDe_of_registraAteMi hr
  refine ⟨f,hf,?_⟩
  obtain ⟨i,hi,hfind⟩ := Option.bind_eq_some_iff.mp hf
  have hid : f.id=i := Table.key_of_find hfind
  subst hid
  have hx : Ve f.id (s.vista f) s := ⟨hfind,rfl,rfl,rfl,rfl⟩
  have hne : (s.vista f).vagas≠[] :=
    List.ne_nil_of_mem (List.mem_filter.mpr ⟨hv,by simp [hi]⟩ : v ∈ (s.vista f).vagas)
  obtain ⟨p,total,t,y,hy,hvy,hvs,hval,htm⟩ := Mesa.yields_registraAteMi hx hi hne hr
  have hstep := Mesa.mediaExata_congr (v := v)
    (hy.ok_bind (f := fun _ => Mesa.calculaTempoMedio v >>= fun _ => Mesa.ocupaMesa (some v) mesa))
    hy.state_bind
  rw [Mesa.associaVagaAMesa_eq,hstep,Mesa.mediaExata_iff hvy hi mesa,hvs,hval,htm,
    Mesa.esperou_iff hi hv,Mesa.esperas_entrada hi]
  exact Iff.rfl

/-- The first aluno of fila 1 is called ten seconds after the enrolment. -/
theorem associaVagaAMesa_mediaExata_cenario :
    let s := Cenario.world Cenario.duas Cenario.umaEmCada
    ∃ v ∈ s.db.vagas.rows,((Mesa.registraAteMi v).exec s).ok=true ∧
      Mesa.MediaExata ((Mesa.associaVagaAMesa (some v) (some 1)).exec s) v := by
  intro s
  have h : ∃ v ∈ s.db.vagas.rows,((Mesa.registraAteMi v).exec s).ok=true ∧
      s.db.vagaValida v.toVagaBase=true ∧ 1 ≤ s.clock 1-v.createdAt ∧
      ∀ f ∈ s.db.filaDe v.filaId,s.db.filaValida f.toFilaBase=true := by
    decide +kernel
  clear_value s
  obtain ⟨v,hv,hr,hval,hwait,hfila⟩ := h
  obtain ⟨f,hf,hiff⟩ := associaVagaAMesa_mediaExata v (some 1) s hv hr
  have hesp : s.db.Esperou v (s.clock 1) := by
    rw [Db.Esperou,if_pos hval]
    exact hwait
  exact ⟨v,hv,hr,hiff.mpr ⟨hesp,Or.inl (hfila f hf)⟩⟩

/-- Called a quarter of a second after the enrolment, the only aluno of a fila has waited 0 seconds:
nobody is left to take the mean over. -/
theorem associaVagaAMesa_divide_por_zero :
    let s : World := ⟨Cenario.db Cenario.duas Cenario.umaEmCada,fun n => n/4⟩
    ∃ v ∈ s.db.vagas.rows,v.id=1 ∧ ((Mesa.registraAteMi v).exec s).ok=true ∧
      ((Mesa.associaVagaAMesa (some v) (some 1)).exec s).result=.error .zeroDivisionError ∧
      (((Mesa.associaVagaAMesa (some v) (some 1)).exec s).state.db.vagas.find 1).map
        (fun w => w.temponafila)=some (some 0) := by
  decide +kernel

end Sisfila
