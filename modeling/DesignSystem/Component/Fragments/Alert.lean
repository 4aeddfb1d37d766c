import DesignSystem.Component.Fragments.Basic
/-!
# Fragments of the alert
-/

namespace DesignSystem.Fragments

/-- The fragments of the alert. -/
def alert : Fragments where
  styles := Text.lines [
    ".alert \x7b",
    "  display: flex;",
    "  align-items: flex-start;",
    "  gap: var(--ds-geometry-spacing-3);",
    "  padding: var(--ds-geometry-spacing-3) var(--ds-geometry-spacing-4);",
    "  font-family: var(--ds-typography-variants-body-fontFamily);",
    "  font-size: var(--ds-typography-fontSize-sm);",
    "  line-height: var(--ds-typography-variants-body-lineHeight);",
    "  border: var(--ds-geometry-border-width) solid;",
    "  border-radius: var(--ds-geometry-radius);",
    "\x7d",
    "",
    ".info \x7b",
    "  color: var(--ds-color-primary-900);",
    "  background: var(--ds-color-primary-50);",
    "  border-color: var(--ds-color-primary-200);",
    "\x7d",
    "",
    ".success \x7b",
    "  color: var(--ds-color-success-900);",
    "  background: var(--ds-color-success-50);",
    "  border-color: var(--ds-color-success-200);",
    "\x7d",
    "",
    ".warning \x7b",
    "  color: var(--ds-color-warning-900);",
    "  background: var(--ds-color-warning-50);",
    "  border-color: var(--ds-color-warning-200);",
    "\x7d",
    "",
    ".danger \x7b",
    "  color: var(--ds-color-danger-900);",
    "  background: var(--ds-color-danger-50);",
    "  border-color: var(--ds-color-danger-200);",
    "\x7d",
    "",
    ".content \x7b",
    "  display: flex;",
    "  flex: 1;",
    "  flex-direction: column;",
    "  gap: var(--ds-geometry-spacing-1);",
    "\x7d",
    "",
    ".heading \x7b",
    "  font-weight: var(--ds-typography-fontWeight-semibold);",
    "\x7d",
    "",
    ".dismiss \x7b",
    "  padding: 0;",
    "  font-size: var(--ds-typography-fontSize-lg);",
    "  line-height: var(--ds-typography-lineHeight-tight);",
    "  color: inherit;",
    "  background: transparent;",
    "  border: none;",
    "  opacity: 0.7;",
    "  cursor: pointer;",
    "\x7d",
    "",
    ".dismiss:hover \x7b",
    "  opacity: 1;",
    "\x7d"]
  element := Text.lines [
    "<div class=\"alert $\x7bthis.variant\x7d\" role=\"alert\" part=\"alert\">",
    "  <div class=\"content\">",
    "    $\x7bthis.heading ? `<strong class=\"heading\">$\x7bescapeHtml(this.heading)\x7d</strong>` : ''\x7d",
    "    <div><slot></slot></div>",
    "  </div>",
    "  $\x7bthis.dismissible ? '<button class=\"dismiss\" type=\"button\" aria-label=\"Dismiss\" data-dismiss>&times;</button>' : ''\x7d",
    "</div>"]
  reactView := Text.lines [
    "const [dismissed, setDismissed] = useState(false);",
    "",
    "if (dismissed) \x7b",
    "  return null;",
    "\x7d",
    "",
    "return (",
    "  <div className=\x7bcx(styles.alert, styles[variant], className)\x7d role=\"alert\">",
    "    <div className=\x7bstyles.content\x7d>",
    "      \x7bheading && <strong className=\x7bstyles.heading\x7d>\x7bheading\x7d</strong>\x7d",
    "      <div>\x7bchildren\x7d</div>",
    "    </div>",
    "    \x7bdismissible && (",
    "      <button",
    "        className=\x7bstyles.dismiss\x7d",
    "        type=\"button\"",
    "        aria-label=\"Dismiss\"",
    "        onClick=\x7b() => \x7b",
    "          setDismissed(true);",
    "          onDismiss?.(null);",
    "        \x7d\x7d",
    "      >",
    "        &times;",
    "      </button>",
    "    )\x7d",
    "  </div>",
    ");"]
  angularView := Text.lines [
    "<div *ngIf=\"!dismissed\" class=\"alert \x7b\x7b variant \x7d\x7d\" role=\"alert\">",
    "  <div class=\"content\">",
    "    <strong *ngIf=\"heading\" class=\"heading\">\x7b\x7b heading \x7d\x7d</strong>",
    "    <div><ng-content></ng-content></div>",
    "  </div>",
    "  <button",
    "    *ngIf=\"dismissible\"",
    "    class=\"dismiss\"",
    "    type=\"button\"",
    "    aria-label=\"Dismiss\"",
    "    (click)=\"dismissed = true; dismiss.emit()\"",
    "  >",
    "    &times;",
    "  </button>",
    "</div>"]
  elementMembers := none
  angularMembers := some <| Text.lines [
    "dismissed = false;"]

end DesignSystem.Fragments
