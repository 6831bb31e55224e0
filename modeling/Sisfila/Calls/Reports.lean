import Mathlib.Algebra.Order.Field.Rat
import Mathlib.Algebra.Order.Field.Basic
import Mathlib.Tactic.NormNum
import Sisfila.Model.Pages
import Sisfila.Queue.Run

namespace Sisfila

namespace FilasController

/-- What both reports compute alike, as a function of the mean waiting time. -/
def medidas (fila : Fila) (n : Int) : Req (ℚ → Relatorio) := do
  let lida ← acha (fun d => d.filas.find fila.id)
  let tmpatdfila ← duracao lida.tempoatendimento
  let nmcf ← nmcf fila
  let prifila ← Mesa.primeiraVaga (some fila.id)
  let ultfila ← Mesa.ultimaVaga (some fila.id)
  let priatendida ← Mesa.primeiraVaga (some fila.id)
  let ultatendida ← vagaNoIndice fila n
  let intensidadefila ← intensidadefila fila
  pure (fun tmespera => {
    npaguardando := fila.npaguardando, npatendidas := fila.npatendidas, nptotal := fila.nptotal
    tmespera := tmespera, tmpatdfila := tmpatdfila, nmcf := nmcf
    prifila := prifila.createdAt, ultfila := ultfila.createdAt
    priatendida := priatendida.dataChamada, ultatendida := ultatendida.dataChamada
    intensidadefila := intensidadefila })

def tempoMedido (fila : Fila) : Req ℚ := do
  let ultima ← Mesa.leFila (some fila.id)
  duracao ultima.tempomedioespera

def comEspera (espera : Req ℚ) (fila : Fila) (n : Int) : Req Relatorio := do
  let t ← espera
  let r ← medidas fila n
  pure (r t)

theorem tela_eq (fila : Fila) (n : Int) : tela fila n=comEspera (tempoMedido fila) fila n := by
  simp only [tela,comEspera,tempoMedido,medidas,bind_assoc,pure_bind]

theorem arquivo_eq (fila : Fila) (n : Int) : arquivo fila n=comEspera (tme fila) fila n := by
  simp only [arquivo,comEspera,medidas,bind_assoc,pure_bind]

section runs

variable {s : World} {f : Fila} {n : Int}

/-- The report is about the fila that was found, once it is past the guard. -/
theorem comGuarda_some {corpo : Fila → Int → Req Relatorio} {u : Sessao} {i : Nat}
    (hf : s.db.filas.find i=some f) {r : Relatorio}
    (hr : ((comGuarda corpo u i).exec s).result=.ok (some r)) :
    ∃ n,f.npatendidas=some n ∧ ((corpo f n).exec s).result=.ok r := by
  have ha : (acha (fun d => d.filas.find i)).exec s=⟨[.consulta],.ok f,s⟩ := by
    simp [acha,Prog.exec_bind,hf]
  have hu : ((authorize u).exec s).state=s := by
    unfold authorize
    split_ifs <;> rfl
  obtain ⟨fila,hfila,hr⟩ := result_bind_ok hr
  rw [ha] at hfila hr
  rw [← Except.ok.inj hfila] at hr
  obtain ⟨_,-,hr⟩ := result_bind_ok hr
  rw [hu] at hr
  split_ifs at hr with hp
  · cases hr
  · cases hn : f.npatendidas with
    | none =>
      rw [hn] at hr
      cases hr
    | some n =>
      rw [hn] at hr
      refine ⟨n,rfl,?_⟩
      obtain ⟨n',hn',hr⟩ := result_bind_ok hr
      rw [← Except.ok.inj hn'] at hr
      split_ifs at hr with h2
      · cases hr
      · obtain ⟨r',hr',hr⟩ := result_bind_ok hr
        rw [← Option.some.inj (Except.ok.inj hr)]
        exact hr'

theorem comEspera_ok {espera : Req ℚ} (he : espera.ReadOnly) {r : Relatorio}
    (hr : ((comEspera espera f n).exec s).result=.ok r) : ∃ t g,(espera.exec s).result=.ok t ∧
      ((medidas f n).exec s).result=.ok g ∧ r=g t := by
  obtain ⟨t,ht,hr⟩ := result_bind_ok hr
  rw [he.exec_state] at hr
  obtain ⟨g,hg,hr⟩ := result_bind_ok hr
  exact ⟨t,g,ht,hg,(Except.ok.inj hr).symm⟩

theorem tmespera_medidas {g : ℚ → Relatorio} (hr : ((medidas f n).exec s).result=.ok g) (t : ℚ) :
    (g t).tmespera=t := by
  obtain ⟨_,-,hr⟩ := result_bind_ok hr
  obtain ⟨_,-,hr⟩ := result_bind_ok hr
  obtain ⟨_,-,hr⟩ := result_bind_ok hr
  obtain ⟨_,-,hr⟩ := result_bind_ok hr
  obtain ⟨_,-,hr⟩ := result_bind_ok hr
  obtain ⟨_,-,hr⟩ := result_bind_ok hr
  obtain ⟨_,-,hr⟩ := result_bind_ok hr
  obtain ⟨_,-,hr⟩ := result_bind_ok hr
  rw [← Except.ok.inj hr]

/-- The seconds of a duration that can be built. -/
def segundos : Option Dbl → Option ℚ
  | none => some 0
  | some (.num q) => some q
  | some _ => none

theorem result_duracao (s : World) (x : Option Dbl) (q : ℚ) :
    ((duracao x).exec s).result=.ok q ↔ segundos x=some q := by
  cases x with
  | none => simp [duracao,segundos]
  | some d => cases d <;> simp [duracao,segundos]

theorem readOnly_duracao (x : Option Dbl) : (duracao x).ReadOnly := by
  cases x with
  | none => trivial
  | some d => cases d <;> trivial

theorem readOnly_tempoMedido (f : Fila) : (tempoMedido f).ReadOnly := by
  refine Prog.Every.bind ?_ (fun g => readOnly_duracao g.tempomedioespera)
  exact Prog.Every.bind ⟨fun _ => rfl,fun _ => trivial⟩ (fun o => every_orRaise _ o)

theorem readOnly_tme (f : Fila) : (tme f).ReadOnly := by
  refine (every_orRaise _ _).bind (fun m => (every_orRaise _ _).bind (fun l => ?_))
  dsimp only
  split
  · exact readOnly_duracao _
  · exact readOnly_duracao _

theorem result_tempoMedido (hf : s.db.filas.find f.id=some f) (q : ℚ) :
    ((tempoMedido f).exec s).result=.ok q ↔ segundos f.tempomedioespera=some q := by
  rw [← result_duracao s]
  simp [tempoMedido,Mesa.leFila,Prog.exec_bind,Db.filaDe,hf]

theorem result_tme {l m : ℚ} (hl : f.lambda=some (.num l)) (hm : f.mi=some (.num m)) (hm0 : m≠0)
    (hml : m-l≠0) : ((tme f).exec s).result=
      .ok (if 0<3600*(l/(m*(m-l))) then 3600*(l/(m*(m-l))) else 0) := by
  have hx : m*(m-l)≠0 := mul_ne_zero hm0 hml
  simp only [tme,Prog.exec_bind,hl,hm,exec_orRaise_some,Outcome.andThen_ok,Dbl.mul,Dbl.sub,Dbl.div,
    if_neg hx,Dbl.scale,Dbl.positivo,decide_eq_true_eq,Int.cast_ofNat]
  split_ifs with h
  · rfl
  · rfl

end runs

/-- The screen shows the measured mean waiting time and the file the one of queueing theory. The
reports agree exactly if the measured one happens to be the other. -/
theorem estatisticas_iguais {s : World} {u u' : Sessao} {i : Nat} {f : Fila}
    (hf : s.db.filas.find i=some f) {l m : ℚ} (hl : f.lambda=some (.num l))
    (hm : f.mi=some (.num m)) (hm0 : m≠0) (hml : m-l≠0) {r r' : Relatorio}
    (hr : ((geraEstatisticasTela u i).exec s).result=.ok (some r))
    (hr' : ((geraEstatisticasArquivo u' i).exec s).result=.ok (some r')) :
    r=r' ↔ ∃ q,segundos f.tempomedioespera=some q ∧
      (0<l*(m*(m-l)) → q*(m*(m-l))=3600*l) ∧ (l*(m*(m-l))≤0 → q=0) := by
  have hfid : f.id=i := Table.key_of_find hf
  obtain ⟨n,hn,hr⟩ := comGuarda_some hf hr
  obtain ⟨n',hn',hr'⟩ := comGuarda_some hf hr'
  obtain rfl : n=n' := Option.some.inj (hn.symm.trans hn')
  rw [tela_eq] at hr
  rw [arquivo_eq] at hr'
  obtain ⟨q,g,hq,hg,rfl⟩ := comEspera_ok (readOnly_tempoMedido f) hr
  obtain ⟨t,g',ht,hg',rfl⟩ := comEspera_ok (readOnly_tme f) hr'
  obtain rfl : g=g' := Except.ok.inj (hg.symm.trans hg')
  rw [result_tempoMedido (hfid ▸ hf)] at hq
  rw [result_tme hl hm hm0 hml] at ht
  have hqt : g q=g t ↔ q=t := by
    refine ⟨fun h => ?_,congrArg g⟩
    rw [← tmespera_medidas hg q,h,tmespera_medidas hg t]
  rw [hqt,← Except.ok.inj ht,hq]
  have hx : m*(m-l)≠0 := mul_ne_zero hm0 hml
  have hsign : 0<3600*(l/(m*(m-l))) ↔ 0<l*(m*(m-l)) := by
    rw [mul_pos_iff_of_pos_left (by norm_num),div_pos_iff,← mul_pos_iff]
  have hval : q=3600*(l/(m*(m-l))) ↔ q*(m*(m-l))=3600*l := by
    rw [← mul_div_assoc,eq_div_iff hx]
  simp only [Option.some_inj,exists_eq_left',hsign]
  split_ifs with hpos
  · rw [hval]
    exact ⟨fun h => ⟨fun _ => h,fun hle => absurd hpos (not_lt.mpr hle)⟩,fun h => h.1 hpos⟩
  · exact ⟨fun h => ⟨fun hp => absurd hp hpos,fun _ => h⟩,fun h => h.2 (not_lt.mp hpos)⟩

/-- Half an hour measured, and half an hour by the formula. -/
theorem estatisticas_iguais_cenario : ∃ r,
    ((geraEstatisticasTela (Cenario.mesa 1) 1).exec
      (Cenario.world (Cenario.atendida 1800) Cenario.tresChamadas)).result=.ok (some r) ∧
    ((geraEstatisticasArquivo (Cenario.mesa 1) 1).exec
      (Cenario.world (Cenario.atendida 1800) Cenario.tresChamadas)).result=.ok (some r) := by
  obtain ⟨r,hr⟩ : ∃ r,((geraEstatisticasTela (Cenario.mesa 1) 1).exec
      (Cenario.world (Cenario.atendida 1800) Cenario.tresChamadas)).result=.ok (some r) :=
    ⟨_,rfl⟩
  have hr' : ((geraEstatisticasArquivo (Cenario.mesa 1) 1).exec
      (Cenario.world (Cenario.atendida 1800) Cenario.tresChamadas)).result=.ok (some {
        npaguardando := none, npatendidas := some 3, nptotal := none, tmespera := 1800
        tmpatdfila := 0, nmcf := some (.num (1/2)), prifila := 0, ultfila := 7200
        priatendida := none, ultatendida := none, intensidadefila := .num (1/2) }) := by
    decide +kernel
  have h := (estatisticas_iguais (i := 1) (l := 1) (m := 2) rfl rfl rfl (by norm_num)
    (by norm_num) hr hr').mpr ⟨1800,rfl,by norm_num,by norm_num⟩
  exact ⟨r,hr,h ▸ hr'⟩

/-- A measured wait of 100 seconds, where the file says half an hour. -/
theorem estatisticas_diferem :
    (((geraEstatisticasTela (Cenario.mesa 1) 1).exec
      (Cenario.world (Cenario.atendida 100) Cenario.tresChamadas)).result.map
        (fun r => r.map Relatorio.tmespera)=.ok (some 100)) ∧
    ((geraEstatisticasArquivo (Cenario.mesa 1) 1).exec
      (Cenario.world (Cenario.atendida 100) Cenario.tresChamadas)).result.map
        (fun r => r.map Relatorio.tmespera)=.ok (some 1800) := by
  decide +kernel

end FilasController

end Sisfila
