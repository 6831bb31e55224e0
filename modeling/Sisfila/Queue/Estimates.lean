import Mathlib.Algebra.Order.BigOperators.Group.List
import Mathlib.Algebra.Order.Ring.Rat
import Sisfila.Model.Resources
import Sisfila.Queue.Answers
import Sisfila.Queue.Position

namespace Sisfila

/-- The filas `Aluno#posicao_total` adds up for a vaga of fila `f`: the active ones of the colegiado
with a smaller prioridade. -/
def Db.aFrente (d : Db) (a : Aluno) (f : Fila) : List Fila :=
  (Aluno.filasAtivas (d.colegiadoDe a.colegiadoId) d).filter
    (fun g => Aluno.antes f.prioridade g.toFilaBase)

namespace Core

variable {k : Core}

/-- How far past the pointer the last vaga of the fila is, 0 if it is not past it. -/
def restam (k : Core) (f : FilaBase) : Int :=
  max 0 (((k.vagasDe f.id).getLast?.bind VagaBase.posicao).getD f.posicao-f.posicao)

theorem restam_nonneg (k : Core) (f : FilaBase) : 0≤k.restam f := le_max_left _ _

/-- When the loop of `posicao_total` ends, it has added up what is left of each fila. -/
theorem somaFilas_of_ok {fs : List FilaBase} {n m : Int} (h : k.somaFilas fs n=.ok m) :
    m=n+(fs.map k.restam).sum := by
  induction fs generalizing n with
  | nil =>
    have hn : n=m := by simpa [somaFilas] using h
    simp [hn]
  | cons f fs ih =>
    rw [somaFilas] at h
    cases hp : (k.vagasDe f.id).getLast?.bind VagaBase.posicao with
    | none => simp [hp] at h
    | some p =>
      rw [hp] at h
      have hm := ih h
      have hr : k.restam f=max 0 (p-f.posicao) := by rw [restam,hp]; rfl
      rw [List.map_cons,List.sum_cons,hm,hr]
      split_ifs <;> omega

theorem sum_restam_nonneg (fs : List FilaBase) : 0≤(fs.map k.restam).sum := by
  apply List.sum_nonneg
  intro x hx
  obtain ⟨f,-,rfl⟩ := List.mem_map.mp hx
  exact k.restam_nonneg f

theorem sum_restam_eq_zero (fs : List FilaBase) :
    (fs.map k.restam).sum=0 ↔ ∀ f ∈ fs,k.restam f=0 := by
  induction fs with
  | nil => simp
  | cons f fs ih =>
    have hf := k.restam_nonneg f
    have hs := sum_restam_nonneg (k := k) fs
    rw [List.map_cons,List.sum_cons,List.forall_mem_cons,← ih]
    constructor
    · intro h
      omega
    · rintro ⟨h0,h1⟩
      omega

end Core

namespace Db

variable {d : Db} {a : Aluno} {v : Vaga} {f : Fila}

theorem posicaoTotal_none (h : d.proximaVaga a=none) : d.core.posicaoTotal a=.ok (-1) := by
  have hc := acha_core a d
  change (d.proximaVaga a).map _=_ at hc
  rw [h] at hc
  rw [Core.posicaoTotal,← hc]
  rfl

theorem posicaoTotal_some (h : d.proximaVaga a=some (v,f)) : d.core.posicaoTotal a=
    if v.posicao=some f.posicao then .ok 0
    else d.core.posicaoApos a v.posicao f.toFilaBase := by
  have hc := acha_core a d
  change (d.proximaVaga a).map _=_ at hc
  rw [h] at hc
  rw [Core.posicaoTotal,← hc]
  rfl

theorem filter_antes_core (d : Db) (a : Aluno) (f : Fila) :
    (d.core.filasAtivas (d.core.colegiadoDe a.colegiadoId)).filter (Aluno.antes f.prioridade)=
      (d.aFrente a f).map Fila.toFilaBase := by
  rw [colegiadoDe_core,filasAtivas_core,List.filter_map]
  rfl

/-- Past the pointer, the place is what is left of the filas in front plus the distance to the
pointer. -/
theorem posicaoApos_eq {p : Int} (hp : f.posicao≤p) :
    d.core.posicaoApos a (some p) f.toFilaBase=
      (d.core.somaFilas ((d.aFrente a f).map Fila.toFilaBase) 0).map
        (fun soma => soma+(p-f.posicao)) := by
  rw [Core.posicaoApos,filter_antes_core]
  cases d.core.somaFilas ((d.aFrente a f).map Fila.toFilaBase) 0 with
  | error e => rfl
  | ok soma =>
    simp only [Except.bind,Except.map,Except.ok.injEq]
    split_ifs <;> omega

/-- The loop completes exactly if it meets a vaga in each of them. -/
theorem somaFilas_ok_iff (hc : d.core.Contigua) (a : Aluno) (f : Fila) :
    (∃ m,d.core.somaFilas ((d.aFrente a f).map Fila.toFilaBase) 0=.ok m) ↔
      ∀ g ∈ d.aFrente a f,d.vagasDe (some g.id)≠[] := by
  have hempty : ∀ g : Fila,d.core.vagasDe g.id=[] ↔ d.vagasDe (some g.id)=[] := by
    intro g
    rw [vagasDe_core,List.map_eq_nil_iff]
  constructor
  · rintro ⟨m,hs⟩ g hg hnil
    exact Core.nonempty_of_somaFilas hs g.toFilaBase (List.mem_map_of_mem hg) ((hempty g).mpr hnil)
  · intro hall
    refine ⟨_,Core.somaFilas_eq hc _ 0 ?_⟩
    intro b hb
    obtain ⟨g,hg,rfl⟩ := List.mem_map.mp hb
    exact fun hnil => hall g hg ((hempty g).mp hnil)

theorem le_of_proximaVaga (h : d.proximaVaga a=some (v,f)) :
    ∃ p,v.posicao=some p ∧ f.posicao≤p := by
  obtain ⟨g,-,hg⟩ := List.exists_of_findSome?_eq_some h
  obtain ⟨w,hw,he⟩ := Option.map_eq_some_iff.mp hg
  obtain ⟨rfl,rfl⟩ := Prod.mk.inj he
  have hm := (mem_orderBy _ _ _).mp (List.mem_of_mem_head? (Option.mem_def.mpr hw))
  have hp := (List.mem_filter.mp hm).2
  simp only [Bool.and_eq_true,decide_eq_true_eq] at hp
  exact hp.2

end Db

theorem result_proximaVaga_eq (a : Aluno) (s : World) :
    (a.proximaVaga.exec s).result=.ok (s.db.proximaVaga a) := by
  obtain ⟨log,hx,-⟩ := reads_proximaVaga a s
  rw [hx]
  rfl

/-- `posicao_total` gives a number: -1 for an aluno without a vaga to come, and no other negative
one. -/
def Aluno.Posicionado (a : Aluno) (s : World) : Prop :=
  ∃ n x,(a.posicaoTotal.exec s).result=.ok n ∧ (a.proximaVaga.exec s).result=.ok x ∧
    (n= -1 ↔ x=none) ∧ (x≠none → 0≤n)

/-- In every state the enrolments and calls reach, `posicao_total` answers exactly if an aluno who
waits past a pointer has no empty fila in front. -/
theorem posicaoTotal_posicionado {s₀ s : World} {es : List Evento} (hv : s₀.db.vagas.rows=[])
    (h : Corre (quaisquer [.inscrever,.filasProximo,.colegiadosProximo]) s₀ es s) (a : Aluno) :
    a.Posicionado s ↔ ∀ v f,s.db.proximaVaga a=some (v,f) → v.posicao≠some f.posicao →
      ∀ g ∈ s.db.aFrente a f,s.db.vagasDe (some g.id)≠[] := by
  have hc := h.contigua hv
  unfold Aluno.Posicionado
  rw [result_posicaoTotal,result_proximaVaga_eq]
  cases hp : s.db.proximaVaga a with
  | none =>
    rw [Db.posicaoTotal_none hp]
    refine iff_of_true ⟨-1,none,rfl,rfl,by simp,by simp⟩ ?_
    intro v f he
    cases he
  | some x =>
    obtain ⟨v,f⟩ := x
    obtain ⟨p,hvp,hle⟩ := Db.le_of_proximaVaga hp
    rw [Db.posicaoTotal_some hp]
    split_ifs with heq
    · refine iff_of_true ⟨0,some (v,f),rfl,rfl,by simp,fun _ => le_rfl⟩ ?_
      intro v' f' he hne
      obtain ⟨rfl,rfl⟩ := Prod.mk.inj (Option.some.inj he)
      exact absurd heq hne
    · rw [hvp,Db.posicaoApos_eq hle]
      constructor
      · rintro ⟨n,x,hn,-⟩ v' f' he -
        obtain ⟨rfl,rfl⟩ := Prod.mk.inj (Option.some.inj he)
        rw [← Db.somaFilas_ok_iff hc]
        cases hs : s.db.core.somaFilas ((s.db.aFrente a f).map Fila.toFilaBase) 0 with
        | error e => simp [hs,Except.map] at hn
        | ok m => exact ⟨m,rfl⟩
      · intro hall
        obtain ⟨m,hs⟩ := (Db.somaFilas_ok_iff hc a f).mpr (hall v f rfl heq)
        have hm := Core.somaFilas_of_ok hs
        have h0 := Core.sum_restam_nonneg (k := s.db.core) ((s.db.aFrente a f).map Fila.toFilaBase)
        have hnn : 0 ≤ m+(p-f.posicao) := by omega
        rw [hs]
        refine ⟨m+(p-f.posicao),some (v,f),rfl,rfl,?_,fun _ => hnn⟩
        simp only [reduceCtorEq,iff_false]
        omega

/-- Two alunos wait in the only fila. -/
theorem posicaoTotal_posicionado_cenario : ∃ es s,
    Corre (quaisquer [.inscrever,.filasProximo,.colegiadosProximo])
      (Cenario.world Cenario.medida .empty) es s ∧ s.db.vagas.rows.length=2 ∧
    (Cenario.aluno 2 "b").Posicionado s := by
  have h := corre_executa [.inscrever,.filasProximo,.colegiadosProximo]
    (Cenario.world Cenario.medida .empty) [Cenario.inscreve "a",Cenario.inscreve "b"] (by decide)
  refine ⟨_,_,h,by decide +kernel,(posicaoTotal_posicionado (by decide +kernel) h _).mpr ?_⟩
  intro v f hp _ g hg
  have hnone : ∀ x ∈ (executa (Cenario.world Cenario.medida .empty)
      [Cenario.inscreve "a",Cenario.inscreve "b"]).2.db.proximaVaga (Cenario.aluno 2 "b"),
      (executa (Cenario.world Cenario.medida .empty)
        [Cenario.inscreve "a",Cenario.inscreve "b"]).2.db.aFrente (Cenario.aluno 2 "b") x.2=[] := by
    decide +kernel
  rw [hnone _ hp] at hg
  cases hg

/-- Nobody has enrolled in the fila called first: the position of an aluno who waits in the second
one cannot be computed. -/
theorem posicaoTotal_posicionado_falha :
    let s₀ := Cenario.world Cenario.duas .empty
    (∀ f ∈ s₀.db.filas.rows,f.posicao=0) ∧ s₀.db.vagas.rows=[] ∧
      ((Cenario.aluno 1 "a").posicaoTotal.exec (executa s₀ [Cenario.inscreve "a"]).2).result=
        .error .noMethodError :=
  ⟨by decide,rfl,by rfl⟩

/-! The two estimates of the waiting time. -/

namespace TelaController

/-- The number, unless it is an infinity or NaN. -/
def finito : Dbl → Option ℚ
  | .num q => some q
  | _ => none

/-- The seconds `inscrever` hands to `Duration.build`. Its message rounds them and leaves out whole
days. -/
def estimativa (v : Vaga) (f : Fila) : Option Dbl :=
  v.posicao.bind (fun p => f.tempoatendimento.map (Dbl.scale (p-f.posicao)))

/-- The answer to an aluno already queued and the position page give one duration, or neither gives
any. -/
def MesmaEstimativa (s : World) (u : Sessao) (m : Option String) (v : Vaga) (f : Fila) : Prop :=
  (∃ codigo lugar q,estimativa v f=some (.num q) ∧
    ((inscrever u m).exec s).result=.ok (.json 405 (mensagemNaFila codigo q)) ∧
    ((posicaoAluno m).exec s).result=.ok (.posicao lugar q)) ∨
  (((inscrever u m).exec s).result=.error .floatDomainError ∧
    ((posicaoAluno m).exec s).result=.error .floatDomainError)

variable {s : World} {u : Sessao} {m : Option String} {a : Aluno} {g : Grupo} {v : Vaga} {f : Fila}
  {p n : Int} {t : Dbl}

private theorem result_inscrever (hu : Aberta s.db u) (hag : Escolhe s.db m a g)
    (hv : s.db.proximaVaga a=some (v,f)) (hp : v.posicao=some p) (hlt : f.posicao<p)
    (ht : f.tempoatendimento=some t) : ((inscrever u m).exec s).result=
      (finito (Dbl.scale (p-f.posicao) t)).elim (.error .floatDomainError)
        (fun q => .ok (.json 405 (mensagemNaFila (Vaga.codigo (some f) (some p)) q))) := by
  obtain ⟨log,he⟩ := exec_inscrever hu hag
  obtain ⟨log',hx,-⟩ := reads_proximaVaga a s
  change a.proximaVaga.exec s=⟨log',.ok (s.db.proximaVaga a),s⟩ at hx
  have hne : p≠f.posicao := by omega
  rw [he]
  cases hd : Dbl.scale (p-f.posicao) t <;>
    simp [inscreve,jaNaFila,Prog.exec_bind,hx,hv,hp,hne,ht,hd,finito]

private theorem result_posicaoAluno
    (ha : s.db.alunos.rows.find? (fun a => a.matricula==m)=some a)
    (hv : s.db.proximaVaga a=some (v,f)) (ht : f.tempoatendimento=some t)
    (hn : (a.posicaoTotal.exec s).result=.ok n) (h0 : 0<n) : ((posicaoAluno m).exec s).result=
      (finito (Dbl.scale n t)).elim (.error .floatDomainError) (fun q => .ok (.posicao n q)) := by
  obtain ⟨log,hx,-⟩ := reads_proximaVaga a s
  change a.proximaVaga.exec s=⟨log,.ok (s.db.proximaVaga a),s⟩ at hx
  obtain ⟨log',hy,-⟩ := reads_posicaoTotal a s
  change a.posicaoTotal.exec s=⟨log',s.db.core.posicaoTotal a,s⟩ at hy
  rw [result_posicaoTotal] at hn
  rw [hn] at hy
  cases hd : Dbl.scale n t <;>
    simp [posicaoAluno,tempoEstimado,Prog.exec_bind,ha,hx,hv,hy,h0,ht,hd,finito]

/-- The place is the distance to the pointer plus what is left of the filas in front. -/
theorem posicaoTotal_apos (hv : s.db.proximaVaga a=some (v,f)) (hp : v.posicao=some p)
    (hlt : f.posicao<p) (hn : (a.posicaoTotal.exec s).result=.ok n) :
    n=((s.db.aFrente a f).map (fun g => s.db.core.restam g.toFilaBase)).sum+(p-f.posicao) := by
  have hne : v.posicao≠some f.posicao := by
    intro he
    rw [hp] at he
    have := Option.some.inj he
    omega
  rw [result_posicaoTotal,Db.posicaoTotal_some hv,if_neg hne,hp,Db.posicaoApos_eq hlt.le] at hn
  cases hs : s.db.core.somaFilas ((s.db.aFrente a f).map Fila.toFilaBase) 0 with
  | error e => simp [hs,Except.map] at hn
  | ok soma =>
    have hsum := Core.somaFilas_of_ok hs
    rw [List.map_map] at hsum
    rw [hs] at hn
    simp only [Except.map,Except.ok.injEq] at hn
    rw [← hn,hsum]
    simp [Function.comp_def]

private theorem restam_eq_zero_iff (g : Fila) : s.db.core.restam g.toFilaBase=0 ↔
    ∀ w ∈ (s.db.vagasDe (some g.id)).getLast?,∀ x ∈ w.posicao,x≤g.posicao := by
  unfold Core.restam
  rw [Db.vagasDe_core,List.getLast?_map]
  cases (s.db.vagasDe (some g.id)).getLast? with
  | none => simp
  | some w =>
    cases hx : w.posicao with
    | none => simp [hx]
    | some x =>
      simp [hx]

/-- The two estimates agree exactly if no fila in front has its last vaga past its pointer, or the
attendance time is not a number other than 0. -/
theorem estimativas_iguais (hT : ∀ f ∈ s.db.filas.rows,f.tempoatendimento≠none)
    (hu : Aberta s.db u) (hag : Escolhe s.db m a g) (hv : s.db.proximaVaga a=some (v,f))
    (hp : v.posicao=some p) (hlt : f.posicao<p) (hn : (a.posicaoTotal.exec s).result=.ok n) :
    MesmaEstimativa s u m v f ↔
      (∀ g ∈ s.db.aFrente a f,∀ w ∈ (s.db.vagasDe (some g.id)).getLast?,∀ x ∈ w.posicao,
        x≤g.posicao) ∨ ∀ q,f.tempoatendimento=some (.num q) → q=0 := by
  have hf : f ∈ s.db.filas.rows := by
    obtain ⟨f',hf',hfe⟩ := List.exists_of_findSome?_eq_some hv
    obtain ⟨w,-,he⟩ := Option.map_eq_some_iff.mp hfe
    obtain ⟨-,rfl⟩ := Prod.mk.inj he
    exact List.mem_of_mem_filter ((mem_orderBy _ _ _).mp hf')
  obtain ⟨t,ht⟩ := Option.ne_none_iff_exists'.mp (hT f hf)
  have hsum := posicaoTotal_apos hv hp hlt hn
  have hnn : 0≤((s.db.aFrente a f).map (fun g => s.db.core.restam g.toFilaBase)).sum := by
    have h := Core.sum_restam_nonneg (k := s.db.core) ((s.db.aFrente a f).map Fila.toFilaBase)
    rwa [List.map_map] at h
  have hI := result_inscrever hu hag hv hp hlt ht
  have hP := result_posicaoAluno hag.1 hv ht hn (by omega)
  have hE : estimativa v f=some (Dbl.scale (p-f.posicao) t) := by simp [estimativa,hp,ht]
  have hk : p-f.posicao≠0 := by omega
  have hn0 : n≠0 := by omega
  unfold MesmaEstimativa
  rw [hI,hP,hE]
  cases t with
  | inf b => simp [Dbl.scale,finito,hk,hn0,ht]
  | nan => simp [Dbl.scale,finito,ht]
  | num q =>
    have hzero : ((s.db.aFrente a f).map (fun g => s.db.core.restam g.toFilaBase)).sum=0 ↔
        ∀ g ∈ s.db.aFrente a f,∀ w ∈ (s.db.vagasDe (some g.id)).getLast?,∀ x ∈ w.posicao,
          x≤g.posicao := by
      have h := Core.sum_restam_eq_zero (k := s.db.core)
        ((s.db.aFrente a f).map Fila.toFilaBase)
      rw [List.map_map,List.forall_mem_map] at h
      exact h.trans (forall₂_congr (fun g _ => restam_eq_zero_iff g))
    have hq : (∀ q',f.tempoatendimento=some (.num q') → q'=0) ↔ q=0 := by simp [ht]
    -- both durations are multiples of the attendance time
    have hmul : ((p-f.posicao : Int) : ℚ)*q=(n : ℚ)*q ↔
        ((s.db.aFrente a f).map (fun g => s.db.core.restam g.toFilaBase)).sum=0 ∨ q=0 := by
      rw [mul_eq_mul_right_iff,Rat.intCast_inj]
      refine or_congr_left ?_
      omega
    rw [hq,← hzero,← hmul]
    simp only [Dbl.scale,finito,Option.elim_some,Except.ok.injEq,reduceCtorEq,false_and,or_false,
      Option.some.injEq,Dbl.num.injEq,Resposta.json.injEq,Resposta.posicao.injEq,true_and]
    constructor
    · rintro ⟨codigo,lugar,x,hx,-,-,hy⟩
      rw [hx,hy]
    · intro he
      exact ⟨_,n,_,rfl,rfl,rfl,he.symm⟩

/-- With nobody in front of the fila both pages say 120 seconds to the second aluno. -/
theorem estimativas_iguais_cenario :
    let s := (executa (Cenario.world Cenario.medida .empty)
      [Cenario.inscreve "a",Cenario.inscreve "b"]).2
    ∃ v f,s.db.proximaVaga (Cenario.aluno 2 "b")=some (v,f) ∧
      MesmaEstimativa s ⟨none,none⟩ (some "b") v f := by
  intro s
  obtain ⟨v,f,hv,hp,hlt,hfr⟩ : ∃ v f,s.db.proximaVaga (Cenario.aluno 2 "b")=some (v,f) ∧
      v.posicao=some 2 ∧ f.posicao<2 ∧ s.db.aFrente (Cenario.aluno 2 "b") f=[] := by
    have h : ∃ x ∈ s.db.proximaVaga (Cenario.aluno 2 "b"),x.1.posicao=some 2 ∧ x.2.posicao<2 ∧
        s.db.aFrente (Cenario.aluno 2 "b") x.2=[] := by
      decide +kernel
    obtain ⟨x,hx,h⟩ := h
    exact ⟨x.1,x.2,hx,h⟩
  refine ⟨v,f,hv,?_⟩
  have hag : Escolhe s.db (some "b") (Cenario.aluno 2 "b")
      { id := 1, prioridade := some 1, filaId := some 1 } := by
    refine ⟨?_,?_,?_⟩ <;> decide +kernel
  refine (estimativas_iguais (n := 2) (by decide +kernel) ⟨_,rfl,Or.inl rfl⟩ hag hv hp hlt
    (by rfl)).mpr (Or.inl ?_)
  rw [hfr]
  simp

/-- One aluno waits in each of two filas. The aluno of the fila called second reads one minute in
the answer of `inscrever` and two minutes on the position page. -/
theorem estimativas_diferem :
    let s := Cenario.world Cenario.duas Cenario.umaEmCada
    (∀ f ∈ s.db.filas.rows,f.tempoatendimento≠none) ∧
      ((inscrever ⟨none,none⟩ (some "a")).exec s).result=
        .ok (.json 405 (mensagemNaFila "_1" 60)) ∧
      ((Cenario.aluno 1 "a").posicaoTotal.exec s).result=.ok 2 ∧
      ((posicaoAluno (some "a")).exec s).result=.ok (.posicao 2 120) ∧
      ∃ x ∈ s.db.proximaVaga (Cenario.aluno 1 "a"),estimativa x.1 x.2=some (.num 60) := by
  exact ⟨by decide,by decide +kernel,by rfl,by decide +kernel,by decide +kernel⟩

end TelaController

end Sisfila
